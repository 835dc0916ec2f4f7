import NativeBuild.Proofs.Files.Room

namespace NativeBuild.FileTree

variable {s t : FileTree} {p parent : Path} {ps : List Path} {place q : Place} {names : List String}
  {e : FileError} {text : String}

theorem isPrefix_step {name : String} (h : name ≠ "..") (place : Place) : place <+: step place name := by
  rw [step, if_neg h]
  split
  · exact List.prefix_rfl
  · exact List.prefix_append place [name]

theorem isPrefix_foldl_step (h : ".." ∉ names) (place : Place) : place <+: names.foldl step place := by
  induction names generalizing place with
  | nil => exact List.prefix_rfl
  | cons name names ih =>
    obtain ⟨hname, hnames⟩ := List.ne_and_not_mem_of_not_mem_cons h
    exact (isPrefix_step hname.symm place).trans (ih hnames _)

theorem stops_isPrefix (h : ".." ∉ names) : ∀ v ∈ stops place names, v <+: names.foldl step place := by
  induction names generalizing place with
  | nil => nofun
  | cons name names ih =>
    obtain ⟨-, hnames⟩ := List.ne_and_not_mem_of_not_mem_cons h
    exact List.forall_mem_cons.mpr ⟨isPrefix_foldl_step h place, ih hnames⟩

theorem directory_of_isPrefix (h : t.node? q ≠ none) (habove : place <+: q) (hne : place ≠ q) :
    t.node? place = some .directory := by
  obtain ⟨rest, rfl⟩ := habove
  induction rest using List.reverseRec with
  | nil => exact absurd (List.append_nil place).symm hne
  | append_singleton rest name ih =>
    rw [← List.append_assoc] at h
    have hdirectory : t.node? (place ++ rest) = some .directory := t.rooted _ _ h
    by_cases hrest : rest = []
    · rwa [hrest, List.append_nil] at hdirectory
    · exact ih (by rw [hdirectory]; nofun) (by simpa using hrest)

theorem not_file_of_grown {places : List Place} (hgrown : Grown places s t) (hup : ".." ∉ p.steps)
    (hmissing : s.locate p = .error e) (hplace : t.locate p = .ok place) (bytes : List UInt8) (executable : Bool) :
    t.node? place ≠ some (.file bytes executable) := by
  intro hfile
  obtain ⟨hproper, hway, hleads⟩ := locate_eq_ok_iff.mp hplace
  have hbefore : s.node? place = some (.file bytes executable) := by
    obtain heq | ⟨-, -, hdirectory⟩ := hgrown.node? place
    · rw [← heq, hfile]
    · rw [hfile] at hdirectory
      cases hdirectory
  have hfound : s.locate p = .ok place := by
    rw [hgrown.workingDirectory] at hway hleads
    refine locate_eq_ok_iff.mpr ⟨hproper, fun v hv => ?_, hleads⟩
    apply directory_of_isPrefix (by rw [hbefore]; nofun)
    · rw [← hleads]
      exact stops_isPrefix hup v hv
    · rintro rfl
      rw [hway v hv] at hfile
      cases hfile
  rw [hmissing] at hfound
  cases hfound

theorem follow_append (xs ys : List String) :
    t.follow place (xs ++ ys) = (t.follow place xs).bind (t.follow · ys) := by
  induction xs generalizing place with
  | nil => rfl
  | cons x xs ih =>
    rw [List.cons_append, follow_cons, follow_cons]
    cases t.requireDirectory place with
    | error e => rfl
    | ok _ =>
      show (if _ then _ else _) = Except.bind (if _ then _ else _) _
      split
      · rfl
      · exact ih

theorem locate_eq_follow (hwhole : '\x00' ∉ p.chars) (hne : p.text ≠ "") (hshort : p.text.utf8ByteSize < pathLimit) :
    t.locate p = t.follow (p.start t.workingDirectory) p.steps := by
  rw [locate, if_neg hwhole, if_neg hne, if_neg (Nat.not_le.mpr hshort)]
  rfl

theorem allowed_of_missing (hne : p.text ≠ "") (h : s.locate p = .error .notFound) :
    '\x00' ∉ p.chars ∧ p.text.utf8ByteSize < pathLimit := by
  rw [locate] at h
  by_cases hwhole : '\x00' ∈ p.chars
  · rw [if_pos hwhole] at h
    cases h
  · refine ⟨hwhole, Nat.lt_of_not_le fun hlong => ?_⟩
    rw [if_neg hwhole, if_neg hne, if_pos hlong] at h
    cases h

theorem locate_of_parent (hparent : p.parent? = some parent) (hpne : parent.text ≠ "") (hne : p.text ≠ "")
    (hmissing : s.locate p = .error .notFound) :
    ∃ name rest, p.steps = parent.steps ++ name :: rest ∧
      ∀ t : FileTree, t.locate p = (t.locate parent).bind (t.follow · (name :: rest)) := by
  obtain ⟨hwhole, hshort⟩ := allowed_of_missing hne hmissing
  obtain ⟨hwhole', hshort'⟩ := Path.allowed_parent hparent hpne hwhole hshort
  obtain ⟨-, name, rest, hsteps⟩ := Path.starts_with_parent hparent hpne
  refine ⟨name, rest, hsteps, fun t => ?_⟩
  rw [locate_eq_follow hwhole hne hshort, locate_eq_follow hwhole' hpne hshort', hsteps, follow_append,
    Path.start, Path.start, Path.isAbsolute_parent hparent hpne]

theorem makeDirectory_eq_error_iff :
    (t.makeDirectory p).1 = .error e ↔
      t.locate p = .error e ∨ e = .alreadyExists ∧ ∃ place node, t.locate p = .ok place ∧ t.node? place = some node := by
  rw [makeDirectory]
  cases hplace : t.locate p with
  | error e' => simp
  | ok place => cases hnode : t.node? place <;> simp [hnode, eq_comm]

theorem orThere_eq_error_iff {r : FileResult Unit} :
    (orThere p r).1 = .error e ↔ r.1 = .error e ∧ r.2.isDirectory p = false := by
  obtain ⟨made, t⟩ := r
  cases made with
  | ok _ => simp [orThere]
  | error e' => cases hdirectory : t.isDirectory p <;> simp [orThere, hdirectory]

theorem locate_of_orThere_error {places : List Place} (hgrown : Grown places s t) (hup : ".." ∉ p.steps)
    (hmissing : s.locate p = .error .notFound) (h : (orThere p (t.makeDirectory p)).1 = .error e) :
    t.locate p = .error e := by
  obtain ⟨hmade, hno⟩ := orThere_eq_error_iff.mp h
  obtain herror | ⟨-, place, node, hplace, hnode⟩ := makeDirectory_eq_error_iff.mp hmade
  · exact herror
  · rw [makeDirectory_of_error hmade] at hno
    cases node with
    | directory =>
      rw [isDirectory_iff.mpr ⟨place, hplace, hnode⟩] at hno
      cases hno
    | file bytes executable => exact absurd hnode (not_file_of_grown hgrown hup hmissing hplace bytes executable)

theorem locate_of_makeDirectories_cons (hup : ".." ∉ p.steps) (hmissing : t.locate p = .error .notFound)
    (hparents : ∀ e, (t.makeDirectories ps).1 = .error e → (t.makeDirectories ps).2.locate p = .error e)
    (h : (t.makeDirectories (p :: ps)).1 = .error e) : (t.makeDirectories (p :: ps)).2.locate p = .error e := by
  have htext := text_ne_of_makeDirectories h
  have hgrown := makeDirectories_grown (t := t) ps
  rw [makeDirectories_of_notFound _ htext (makeDirectory_eq_error_iff.mpr (.inl hmissing))] at h ⊢
  generalize t.makeDirectories ps = r at hparents hgrown h ⊢
  obtain ⟨made, t'⟩ := r
  cases made with
  | ok _ =>
    dsimp only at h hgrown ⊢
    rw [(of_orThere_error h).2]
    exact locate_of_orThere_error hgrown hup hmissing h
  | error e' => exact hparents e h

theorem locate_of_makeDirectories_error (hlineage : Lineage (p :: ps)) (hup : ".." ∉ p.steps)
    (hmissing : t.locate p = .error .notFound) (h : (t.makeDirectories (p :: ps)).1 = .error e) :
    (t.makeDirectories (p :: ps)).2.locate p = .error e := by
  have htext := text_ne_of_makeDirectories h
  refine locate_of_makeDirectories_cons hup hmissing (fun e he => ?_) h
  clear h
  induction ps generalizing p e with
  | nil => cases he
  | cons q qs ih =>
    obtain ⟨hparent, hrest⟩ := List.isChain_cons_cons.mp hlineage
    have hq := text_ne_of_makeDirectories he
    obtain ⟨name, rest, hsteps, hlocate⟩ := locate_of_parent hparent hq htext hmissing
    have hstopped : (t.makeDirectories (q :: qs)).2.locate q = .error e := by
      cases hplace : t.locate q with
      | error e₀ =>
        rw [hlocate, hplace] at hmissing
        rw [show e₀ = .notFound from Except.error.inj hmissing] at hplace
        have hup' : ".." ∉ q.steps := fun hmem => hup (hsteps ▸ List.mem_append_left _ hmem)
        exact locate_of_makeDirectories_cons hup' hplace (ih hrest hup' hplace hq) he
      | ok place =>
        exfalso
        have hfollow : t.follow place (name :: rest) = .error .notFound := by
          rw [hlocate, hplace] at hmissing
          exact hmissing
        cases hnode : t.node? place with
        | none =>
          have hmade : (t.makeDirectory q).1 = .ok () := makeDirectory_eq_ok_iff.mpr ⟨place, hplace, hnode⟩
          rw [makeDirectories_of_ne hq (by rw [hmade]; nofun), orThere_eq_error_iff, hmade] at he
          cases he.1
        | some node =>
          cases node with
          | directory =>
            rw [makeDirectories_of_isDirectory (isDirectory_iff.mpr ⟨place, hplace, hnode⟩)] at he
            cases he
          | file bytes executable =>
            rw [follow_cons, requireDirectory, hnode] at hfollow
            cases hfollow
    rw [hlocate, hstopped]
    rfl

theorem isDirectory_of_locate_error (h : t.locate p = .error e) : t.isDirectory p = false := by
  rw [← Bool.not_eq_true, isDirectory_iff]
  rintro ⟨place, hplace, -⟩
  rw [h] at hplace
  cases hplace

theorem orThere_of_locate_error (h : t.locate p = .error e) : orThere p (t.makeDirectory p) = (.error e, t) := by
  have hmade : (t.makeDirectory p).1 = .error e := makeDirectory_eq_error_iff.mpr (.inl h)
  refine Prod.ext (orThere_eq_error_iff.mpr ⟨hmade, ?_⟩) ?_
  · rw [makeDirectory_of_error hmade]
    exact isDirectory_of_locate_error h
  · rw [snd_orThere]
    exact makeDirectory_of_error hmade

theorem not_up_of_parent {q : Path} (hlineage : Lineage (p :: ps)) (hup : ".." ∉ p.steps)
    (h : (t.makeDirectories ps).1 = .error e) (hq : q ∈ ps.head?) : ".." ∉ q.steps := by
  obtain ⟨qs, rfl⟩ := List.head?_eq_some_iff.mp hq
  obtain ⟨hparent, -⟩ := List.isChain_cons_cons.mp hlineage
  obtain ⟨-, name, rest, hsteps⟩ := Path.starts_with_parent hparent (text_ne_of_makeDirectories h)
  exact fun hmem => hup (hsteps ▸ List.mem_append_left _ hmem)

theorem makeDirectories_again_of_straight (hlineage : Lineage ps) (hup : ∀ p ∈ ps.head?, ".." ∉ p.steps)
    (h : (t.makeDirectories ps).1 = .error e) :
    (t.makeDirectories ps).2.makeDirectories ps = (.error e, (t.makeDirectories ps).2) := by
  induction ps generalizing e with
  | nil => cases h
  | cons p ps ih =>
    have htext := text_ne_of_makeDirectories h
    by_cases hmade : (t.makeDirectory p).1 = .error .notFound
    · have hmissing : t.locate p = .error .notFound := (makeDirectory_eq_error_iff.mp hmade).resolve_right (by simp)
      have hstopped := locate_of_makeDirectories_error hlineage (hup p rfl) hmissing h
      have hthere := orThere_of_locate_error hstopped
      have hrest : Lineage ps := hlineage.tail
      have hparents (e' : FileError) (he' : (t.makeDirectories ps).1 = .error e') :=
        ih hrest (fun q hq => not_up_of_parent hlineage (hup p rfl) he' hq) he'
      have hfound := makeDirectories_again_of_ok (t := t) hrest
      by_cases he : e = .notFound
      · -- the parents are gone through once more, and come to what they came to
        have hagain : ((t.makeDirectories (p :: ps)).2.makeDirectory p).1 = .error .notFound :=
          makeDirectory_eq_error_iff.mpr (.inl (he ▸ hstopped))
        rw [makeDirectories_of_notFound _ htext hagain]
        rw [makeDirectories_of_notFound _ htext hmade] at h hthere ⊢
        clear hagain hstopped
        generalize t.makeDirectories ps = r at h hthere hparents hfound ⊢
        obtain ⟨made, t'⟩ := r
        cases made with
        | ok _ =>
          dsimp only at h hfound hthere ⊢
          rw [(of_orThere_error h).2] at hthere ⊢
          rw [hfound rfl]
          exact hthere
        | error e' =>
          obtain rfl : e' = e := Except.error.inj h
          dsimp only at hparents ⊢
          rw [hparents e' rfl]
      · have hagain : ((t.makeDirectories (p :: ps)).2.makeDirectory p).1 ≠ .error .notFound := by
          rw [makeDirectory_eq_error_iff.mpr (.inl hstopped)]
          exact fun heq => he (Except.error.inj heq)
        rw [makeDirectories_of_ne htext hagain, hthere]
    · rw [makeDirectories_of_ne htext hmade] at h ⊢
      have hsame := (of_orThere_error h).2
      rw [hsame, makeDirectories_of_ne htext hmade]
      exact Prod.ext h hsame

theorem ensureDirectory_again_of_straight (hup : ".." ∉ p.steps) (h : (t.ensureDirectory p).1 = .error e) :
    (t.ensureDirectory p).2.ensureDirectory p = (.error e, (t.ensureDirectory p).2) := by
  have hlineage := ancestry_lineage p
  obtain ⟨parents, hancestry⟩ := ancestry_eq_cons p
  have hhead : ∀ q ∈ (ancestry p).head?, ".." ∉ q.steps := by
    rw [hancestry]
    rintro q ⟨⟩
    exact hup
  have htried : ¬ t.exists? p = true ∧ t.ensureDirectory p = t.makeDirectories (ancestry p) := by
    rw [ensureDirectory] at h ⊢
    split at h
    · cases h
    · next hno => exact ⟨hno, if_neg hno⟩
  obtain ⟨hexists, htried⟩ := htried
  rw [htried] at h ⊢
  have hagain := makeDirectories_again_of_straight hlineage hhead h
  suffices hno : ¬ (t.makeDirectories (ancestry p)).2.exists? p = true by
    rw [ensureDirectory, if_neg hno, hagain]
  rw [hancestry] at h hlineage ⊢
  have htext := text_ne_of_makeDirectories h
  by_cases hmade : (t.makeDirectory p).1 = .error .notFound
  · have hmissing : t.locate p = .error .notFound := (makeDirectory_eq_error_iff.mp hmade).resolve_right (by simp)
    have hstopped := locate_of_makeDirectories_error hlineage hup hmissing h
    rw [exists?, lookup, hstopped]
    intro hexists
    cases hexists
  · rw [makeDirectories_of_ne htext hmade] at h ⊢
    rwa [(of_orThere_error h).2]

theorem exists_room_of_prepareRoom {e : FileFailure} (h : (t.prepareRoom p).1 = .error e) :
    ∃ parent, room? p = some parent := by
  cases hroom : room? p with
  | none =>
    rw [prepareRoom, hroom] at h
    cases h
  | some parent => exact ⟨parent, rfl⟩

theorem prepareRoom_again_of_straight {e : FileFailure} (hroom : room? p = some parent) (hup : ".." ∉ parent.steps)
    (h : (t.prepareRoom p).1 = .error e) :
    (t.prepareRoom p).2.prepareRoom p = (.error e, (t.prepareRoom p).2) := by
  rw [prepareRoom_of_room? hroom] at h
  rw [prepareRoom_of_room? hroom, prepareRoom_of_room? hroom, snd_during]
  cases hmade : (t.ensureDirectory parent).1 with
  | ok _ =>
    rw [during_eq_ok_iff.mpr hmade] at h
    cases h
  | error cause =>
    have hpair : t.ensureDirectory parent = (.error cause, (t.ensureDirectory parent).2) := Prod.ext hmade rfl
    rw [ensureDirectory_again_of_straight hup hmade]
    rw [hpair] at h
    exact Prod.ext h rfl

theorem writeText_again_of_straight {e : FileFailure} (text : String) (hroom : room? p = some parent)
    (hup : ".." ∉ parent.steps) (h : (t.prepareRoom p).1 = .error e) :
    (t.writeText p text).1 = .error e ∧
      (t.writeText p text).2.writeText p text = (.error e, (t.writeText p text).2) := by
  have hfirst : t.prepareRoom p = (.error e, (t.prepareRoom p).2) := Prod.ext h rfl
  have hsecond := prepareRoom_again_of_straight hroom hup h
  rw [writeText_eq, hfirst]
  refine ⟨rfl, ?_⟩
  dsimp only
  rw [writeText_eq, hsecond]

end NativeBuild.FileTree
