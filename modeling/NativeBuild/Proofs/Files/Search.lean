import NativeBuild.Proofs.Files.Listing
import NativeBuild.Proofs.Files.Masks

namespace NativeBuild

open Text

namespace Glob

open NativeBuild.Path

variable {t : FileTree} {absolute : Bool} {ps : List (List Char)} {x : List Char} {p r : Path} {name : String}
  {m : Mask} {d : Path}

theorem same_here_iff : p.Same here ↔ ∃ tail, pieces '/' p.chars = ['.'] :: tail ∧ ∀ q ∈ tail, isSilent q = true :=
  components_eq_current_iff

theorem same_here_of_child (hne : p.text ≠ "") (hname : Slashless name) (h : (p.child name).Same here) :
    p.Same here := by
  obtain ⟨tail, hpieces, htail⟩ := same_here_iff.mp h
  rw [pieces_child p hname] at hpieces
  cases hlead : terminatedPieces '/' p.chars with
  | nil => exact absurd hlead (terminatedPieces_ne_nil hne)
  | cons q qs =>
    rw [hlead, List.cons_append] at hpieces
    obtain ⟨rfl, rfl⟩ := List.cons.inj hpieces
    obtain ⟨hqs, -⟩ := List.forall_mem_append.mp htail
    rw [same_here_iff]
    obtain heq | heq := pieces_eq_terminatedPieces p.chars
    · exact ⟨qs, heq.trans hlead, hqs⟩
    · refine ⟨qs ++ [[]], by rw [heq, hlead, List.cons_append], ?_⟩
      exact List.forall_mem_append.mpr ⟨hqs, List.forall_mem_singleton.mpr rfl⟩

inductive Reached (absolute : Bool) (ps : List (List Char)) : Path → Prop where
  | start (relative : absolute = false) (stayed : ∀ q ∈ ps, q = ['.']) : Reached absolute ps here
  | away {p : Path} (nonempty : p.text ≠ "") (elsewhere : ¬ p.Same here)
      (steps : terminatedPieces '/' p.chars = (if absolute then [[]] else []) ++ kept absolute ps) : Reached absolute ps p

theorem extend_here (name : String) : extend here name = ⟨name⟩ := if_pos rfl

theorem extend_of_not_same (h : ¬ p.Same here) (name : String) : extend p name = p.child name := if_neg h

theorem Reached.pieces_extend (h : Reached absolute ps p) (hname : Slashless name) :
    pieces '/' (extend p name).chars = (if absolute then [[]] else []) ++ (kept absolute ps ++ [name.toList]) := by
  cases h with
  | start relative stayed =>
    rw [extend_here, relative, kept_eq_nil stayed]
    exact pieces_of_not_mem hname
  | away nonempty elsewhere steps =>
    rw [extend_of_not_same elsewhere, pieces_child p hname, steps, List.append_assoc]

theorem Reached.goes {qs : List (List Char)} (h : Reached absolute ps p) (hstall : ¬ Stalls absolute (ps ++ x :: qs)) :
    p = here → x ≠ [] := by
  rintro rfl rfl
  cases h with
  | start relative stayed =>
    apply hstall
    have hdrop : ps.dropWhile (· = ['.']) = [] := by simpa [List.dropWhile_eq_nil_iff] using stayed
    refine ⟨relative, ?_⟩
    rw [List.dropWhile_append, hdrop]
    rfl
  | away nonempty elsewhere steps => exact elsewhere rfl

theorem Reached.extend (h : Reached absolute ps p) (hx : '/' ∉ x) (hgo : p = here → x ≠ []) :
    Reached absolute (ps ++ [x]) (Glob.extend p (String.ofList x)) := by
  have hname : Slashless (String.ofList x) := by rwa [Slashless, String.toList_ofList]
  cases h with
  | start relative stayed =>
    rw [extend_here]
    have hpieces : pieces '/' (⟨String.ofList x⟩ : Path).chars = [] ++ [x] := by
      rw [Path.chars, String.toList_ofList]
      exact pieces_of_not_mem hx
    by_cases hdot : x = ['.']
    · rw [hdot]
      exact .start relative (List.forall_mem_append.mpr ⟨stayed, List.forall_mem_singleton.mpr rfl⟩)
    · refine .away ?_ ?_ ?_
      · simpa using hgo rfl
      · intro hsame
        obtain ⟨tail, htail, -⟩ := same_here_iff.mp hsame
        rw [hpieces] at htail
        exact hdot (List.cons.inj htail).1
      · rw [terminatedPieces_of_pieces hpieces, if_neg (hgo rfl), kept_concat (hgo rfl) (.inr (.inr hdot)), relative,
          kept_eq_nil stayed]
        rfl
  | away nonempty elsewhere steps =>
    rw [extend_of_not_same elsewhere]
    refine .away (child_text_ne nonempty hname) (fun hsame => elsewhere (same_here_of_child nonempty hname hsame)) ?_
    rw [terminatedPieces_of_pieces (pieces_child p hname), String.toList_ofList]
    split
    · next hx => rw [hx, kept_concat_nil, steps]
    · next hx =>
      -- A `.` is left out only behind nothing, and then the search would still be where it started.
      have hkept : absolute = true ∨ kept absolute ps ≠ [] ∨ x ≠ ['.'] := by
        by_contra hnone
        simp only [not_or, Bool.not_eq_true, not_not] at hnone
        obtain ⟨rfl, hnil, -⟩ := hnone
        rw [hnil] at steps
        exact terminatedPieces_ne_nil nonempty steps
      rw [kept_concat hx hkept, steps, List.append_assoc]

def goAlong (p : Path) (ps : List (List Char)) : Path := ps.foldl (fun p q => extend p (String.ofList q)) p

theorem Reached.goAlong {qs : List (List Char)} (h : Reached absolute ps p) (hqs : ∀ q ∈ qs, '/' ∉ q)
    (hstall : ¬ Stalls absolute (ps ++ qs)) : Reached absolute (ps ++ qs) (Glob.goAlong p qs) := by
  induction qs generalizing ps p with
  | nil =>
    rw [List.append_nil]
    exact h
  | cons x qs ih =>
    obtain ⟨hx, hqs⟩ := List.forall_mem_cons.mp hqs
    have hgo := h.goes hstall
    rw [List.append_cons] at hstall ⊢
    exact ih (h.extend hx hgo) hqs hstall

theorem isDirectory_here {place : Place} (h : t.locate p = .ok place) (hrelative : p.isAbsolute = false) :
    t.isDirectory here = true := by
  obtain ⟨hproper, hway, -⟩ := FileTree.locate_eq_ok_iff.mp h
  obtain ⟨s, ss, hs⟩ := List.exists_cons_of_ne_nil (steps_ne_nil hproper.nonempty hrelative)
  have hstart : p.start t.workingDirectory = t.workingDirectory := by simp [Path.start, hrelative]
  rw [wayFrom, hs, hstart, FileTree.stops, List.forall_mem_cons] at hway
  refine FileTree.isDirectory_iff.mpr ⟨t.workingDirectory, FileTree.locate_eq_ok_iff.mpr ⟨?_, ?_, rfl⟩, hway.1⟩
  · constructor <;> decide
  · exact List.forall_mem_singleton.mpr hway.1

theorem Reached.isDirectory_of_extend {place : Place} (h : Reached absolute ps p) (hname : Slashless name)
    (hne : name ≠ "") (hplace : t.locate (Glob.extend p name) = .ok place) : t.isDirectory p = true := by
  cases h with
  | start relative stayed =>
    rw [extend_here] at hplace
    exact isDirectory_here hplace (isAbsolute_of_slashless hname)
  | away nonempty elsewhere steps =>
    rw [extend_of_not_same elsewhere] at hplace
    exact FileTree.isDirectory_of_child nonempty hname hne hplace

theorem Reached.isDirectory_of_isDirectory_extend (h : Reached absolute ps p) (hx : '/' ∉ x) (hgo : p = here → x ≠ [])
    (hdirectory : t.isDirectory (Glob.extend p (String.ofList x)) = true) : t.isDirectory p = true := by
  have hname : Slashless (String.ofList x) := by rwa [Slashless, String.toList_ofList]
  cases h with
  | start relative stayed =>
    obtain ⟨place, hplace, -⟩ := FileTree.isDirectory_iff.mp hdirectory
    exact (Reached.start relative stayed).isDirectory_of_extend hname (by simpa using hgo rfl) hplace
  | away nonempty elsewhere steps =>
    rw [extend_of_not_same elsewhere] at hdirectory
    exact FileTree.isDirectory_of_isDirectory_child nonempty hname hdirectory

theorem Reached.isDirectory_of_goAlong {qs : List (List Char)} (h : Reached absolute ps p) (hqs : ∀ q ∈ qs, '/' ∉ q)
    (hstall : ¬ Stalls absolute (ps ++ qs)) (hdirectory : t.isDirectory (Glob.goAlong p qs) = true) :
    t.isDirectory p = true := by
  induction qs generalizing ps p with
  | nil => exact hdirectory
  | cons x qs ih =>
    obtain ⟨hx, hqs⟩ := List.forall_mem_cons.mp hqs
    have hgo := h.goes hstall
    rw [List.append_cons] at hstall
    exact h.isDirectory_of_isDirectory_extend hx hgo (ih (h.extend hx hgo) hqs hstall hdirectory)

theorem literal?_chars (cs : List Char) : literal? (cs.map .char) = some cs := by
  rw [literal?]
  induction cs with
  | nil => rfl
  | cons c cs ih => simp [List.mapM_cons, ih]

theorem entries_chars (t : FileTree) (p : Path) (cs : List Char) :
    entries t p (cs.map .char) = literalEntry t p (String.ofList cs) := by
  rw [entries, literal?_chars]

theorem eq_of_mem_literalEntry (h : r ∈ literalEntry t p name) : r = extend p name := by
  rw [literalEntry] at h
  split at h <;> split at h <;> simp_all

def literalSteps (ps : List (List Char)) : List Step := ps.map (fun q => .name (q.map .char))

theorem expand_name (t : FileTree) (tokens : List Token) (rest : List Step) (p : Path) :
    expand t false (.name tokens :: rest) p = (entries t p tokens).flatMap (expand t false rest) := rfl

theorem mem_expand_of_mem {rest : List Step} (h : r ∈ expand t false (literalSteps ps ++ rest) p) :
    r ∈ expand t false rest (goAlong p ps) := by
  induction ps generalizing p with
  | nil => exact h
  | cons x ps ih =>
    rw [literalSteps, List.map_cons, List.cons_append, expand_name, entries_chars, List.mem_flatMap] at h
    obtain ⟨q, hq, hr⟩ := h
    rw [eq_of_mem_literalEntry hq] at hr
    exact ih hr

theorem exists_of_isDirectory (h : t.isDirectory p = true) : t.exists? p = true := by
  rw [FileTree.exists?, FileTree.lookup_eq_directory_iff.mpr (FileTree.isDirectory_iff.mp h)]
  rfl

theorem Reached.expand_lead {qs : List (List Char)} {rest : List Step} (h : Reached absolute ps p)
    (hqs : ∀ q ∈ qs, '/' ∉ q) (hstall : ¬ Stalls absolute (ps ++ qs))
    (hdirectory : t.isDirectory (Glob.goAlong p qs) = true) :
    expand t false (literalSteps qs ++ rest) p = expand t false rest (Glob.goAlong p qs) := by
  induction qs generalizing ps p with
  | nil => rfl
  | cons x qs ih =>
    -- That the pieces so far are there is known from the directory at the end.
    have hhere := h.isDirectory_of_goAlong hqs hstall hdirectory
    obtain ⟨hx, hqs⟩ := List.forall_mem_cons.mp hqs
    have hgo := h.goes hstall
    have hreached := h.extend hx hgo
    rw [List.append_cons] at hstall
    have hnext := hreached.isDirectory_of_goAlong hqs hstall hdirectory
    have hentry : literalEntry t p (String.ofList x) = [Glob.extend p (String.ofList x)] := by
      rw [literalEntry]
      simp [hhere, exists_of_isDirectory hnext]
    rw [literalSteps, List.map_cons, List.cons_append, expand_name, entries_chars, hentry, List.flatMap_singleton]
    exact ih hreached hqs hstall hdirectory

theorem Reached.extend_fileName? (h : Reached absolute ps p) (hname : IsName name) :
    (Glob.extend p name).fileName? = some name :=
  hname.fileName?_of_pieces (by rw [h.pieces_extend hname.slashless, ← List.append_assoc])

theorem Reached.placeFrom_extend (h : Reached absolute ps p) (hname : IsName name) (cwd : Place) :
    (Glob.extend p name).placeFrom cwd = p.placeFrom cwd ++ [name] := by
  cases h with
  | start relative stayed =>
    have hstep : Path.steps ⟨name⟩ = [name] := by
      rw [Path.steps, Path.chars, pieces_of_not_mem hname.slashless]
      exact stepsOf_name hname.nonempty
    rw [extend_here, Path.placeFrom, Path.start, isAbsolute_of_slashless hname.slashless, hstep, List.foldl_cons,
      List.foldl_nil, hname.step_eq]
    rfl
  | away nonempty elsewhere steps =>
    rw [extend_of_not_same elsewhere, FileTree.placeFrom_child p hname.slashless, stepsOf_name hname.nonempty,
      List.foldl_cons, List.foldl_nil, hname.step_eq]

theorem Reached.childrenOf_eq (h : Reached absolute ps p) (hnames : t.WellNamed) (hdirectory : t.isDirectory p = true) :
    childrenOf t p = (t.namesIn (p.placeFrom t.workingDirectory)).map (Glob.extend p) := by
  cases h with
  | start relative stayed =>
    have hhere : here.Same here := rfl
    rw [childrenOf, if_pos hhere, FileTree.children_eq hdirectory, List.map_map]
    apply List.map_congr_left
    intro name hname
    rw [Function.comp_apply, (hnames.isName hname).fileName?_child, Option.getD_some, extend_here]
  | away nonempty elsewhere steps =>
    rw [childrenOf, if_neg elsewhere, FileTree.children_eq hdirectory]
    exact List.map_congr_left fun name _ => (extend_of_not_same elsewhere name).symm

theorem entries_endsIn (t : FileTree) (p : Path) (suffix : String) : entries t p (Mask.endsIn suffix).tokens =
    if t.isDirectory p = true then (childrenOf t p).filter (hasName (Mask.endsIn suffix).tokens) else [] := by
  have hwild : literal? (Mask.endsIn suffix).tokens = none := by
    rw [literal?, Mask.tokens, List.mapM_cons]
    rfl
  rw [entries, hwild]
  simp [dotEntries, Mask.tokens]

theorem Reached.mem_namesIn_of_isFile (h : Reached absolute ps p) (hname : IsName name)
    (hfile : t.isFile (Glob.extend p name) = true) :
    t.isDirectory p = true ∧ name ∈ t.namesIn (p.placeFrom t.workingDirectory) := by
  obtain ⟨-, place, hplace, bytes, executable, hnode⟩ := FileTree.isFile_iff.mp hfile
  refine ⟨h.isDirectory_of_extend hname.slashless hname.nonempty hplace, FileTree.mem_namesIn.mpr ?_⟩
  rw [← h.placeFrom_extend hname, FileTree.placeFrom_of_locate hplace, hnode]
  nofun

theorem Reached.mem_entries (h : Reached absolute ps p) (hnames : t.WellNamed) (hm : m.Legible) :
    r ∈ (entries t p m.tokens).filter t.isFile ↔
      ∃ name, IsName name ∧ m.Admits name ∧ r = Glob.extend p name ∧ t.isFile r = true := by
  rw [List.mem_filter]
  cases m with
  | called n =>
    obtain ⟨hn, -⟩ := hm
    rw [Mask.tokens, entries_chars, String.ofList_toList]
    constructor
    · rintro ⟨hr, hfile⟩
      exact ⟨n, hn, rfl, eq_of_mem_literalEntry hr, hfile⟩
    · rintro ⟨name, -, rfl, rfl, hfile⟩
      refine ⟨?_, hfile⟩
      obtain ⟨bytes, executable, hlookup⟩ := FileTree.isFile_iff_lookup.mp hfile
      have hexists : t.exists? (Glob.extend p name) = true := by
        rw [FileTree.exists?, hlookup]
        rfl
      simp [literalEntry, hn.not_current, hn.not_parent, hexists]
  | endsIn suffix =>
    rw [entries_endsIn]
    have hadmits (name : String) (hname : IsName name) :
        hasName (Mask.endsIn suffix).tokens (Glob.extend p name) = true ↔ (Mask.endsIn suffix).Admits name := by
      rw [hasName, h.extend_fileName? hname]
      exact Mask.isMatch_tokens _ name
    constructor
    · rintro ⟨hr, hfile⟩
      by_cases hdirectory : t.isDirectory p = true
      · rw [if_pos hdirectory, h.childrenOf_eq hnames hdirectory, List.mem_filter, List.mem_map] at hr
        obtain ⟨⟨name, hmem, rfl⟩, hmatch⟩ := hr
        have hname := hnames.isName hmem
        exact ⟨name, hname, (hadmits name hname).mp hmatch, rfl, hfile⟩
      · rw [if_neg hdirectory] at hr
        cases hr
    · rintro ⟨name, hname, hasked, rfl, hfile⟩
      obtain ⟨hdirectory, hmem⟩ := h.mem_namesIn_of_isFile hname hfile
      rw [if_pos hdirectory, h.childrenOf_eq hnames hdirectory, List.mem_filter, hadmits name hname]
      exact ⟨⟨List.mem_map_of_mem hmem, hasked⟩, hfile⟩

theorem Reached.entries_apart (h : Reached absolute ps p) (hnames : t.WellNamed) (m : Mask) :
    (entries t p m.tokens).Pairwise (fun q r => ¬ q.Same r) := by
  cases m with
  | called n =>
    rw [Mask.tokens, entries_chars, literalEntry]
    split <;> split <;> simp
  | endsIn suffix =>
    rw [entries_endsIn]
    split
    · next hdirectory =>
      apply List.Pairwise.filter
      rw [h.childrenOf_eq hnames hdirectory, List.pairwise_map]
      apply (t.namesIn_nodup _).imp_of_mem
      intro name name' hmem hmem' hne hsame
      have hlast := getLast?_components (h.extend_fileName? (hnames.isName hmem))
      rw [hsame, getLast?_components (h.extend_fileName? (hnames.isName hmem'))] at hlast
      exact hne (by simpa using hlast.symm)
    · exact List.Pairwise.nil

structure Listed (t : FileTree) (d : Path) (Asked : String → Prop) (found : List Path) : Prop where
  increasing : found.Pairwise (fun p q => compare p.components q.components = .lt)
  mem_iff : ∀ q, q ∈ found ↔ ∃ name, IsName name ∧ Asked name ∧ q = d.inside name ∧ t.isFile q = true

structure Literal (d : Path) : Prop where
  plain : Plain d.chars
  goes : ¬ Stalls d.isAbsolute d.lead

instance (d : Path) : Decidable (Literal d) :=
  decidable_of_iff (Plain d.chars ∧ ¬ Stalls d.isAbsolute d.lead) ⟨fun ⟨h, h'⟩ => ⟨h, h'⟩, fun ⟨h, h'⟩ => ⟨h, h'⟩⟩

def startOf (d : Path) : Path := if d.isAbsolute then ⟨"/"⟩ else here

theorem reached_startOf (d : Path) : Reached d.isAbsolute [] (startOf d) := by
  rw [startOf]
  cases d.isAbsolute with
  | true => exact .away (by decide) (by decide) (by decide)
  | false => exact .start rfl nofun

theorem reached_lead (hd : Literal d) : Reached d.isAbsolute d.lead (goAlong (startOf d) d.lead) :=
  (reached_startOf d).goAlong d.slash_not_mem_lead hd.goes

theorem extend_goAlong (hd : Literal d) (hname : Slashless name) :
    extend (goAlong (startOf d) d.lead) name = d.inside name :=
  eq_of_pieces (by rw [(reached_lead hd).pieces_extend hname, pieces_inside d hname])

theorem filesIn_of_readPattern {mask : String} {pattern : Pattern} (hread : readPattern (d.child mask).chars = .ok pattern)
    (hfiles : pattern.directory = false) (hne : (d.child mask).text ≠ "") : filesIn t d mask =
      .ok (Path.sort ((expand t false pattern.steps (if pattern.absolute then ⟨"/"⟩ else here)).filter t.isFile)) := by
  have hfound : files t (d.child mask).text =
      .ok (Path.sort ((expand t false pattern.steps (if pattern.absolute then ⟨"/"⟩ else here)).filter t.isFile)) := by
    have htext : readPattern (d.child mask).text.toList = .ok pattern := hread
    rw [files, htext]
    simp [hfiles, hne, bind, Except.bind, pure, Except.pure]
  -- the equation that a rewrite with the definition needs is slow to make
  delta filesIn
  dsimp only
  rw [hfound]

theorem filesIn_eq_ok (hd : Literal d) (hm : m.Legible) : filesIn t d m.text =
    .ok (Path.sort ((expand t false (literalSteps d.lead ++ [Step.name m.tokens]) (startOf d)).filter t.isFile)) := by
  have hne : (d.child m.text).text ≠ "" := by
    intro hempty
    obtain ⟨sep, -, hchars⟩ := chars_child d hm.slashless
    rw [Path.chars, hempty, String.toList_empty] at hchars
    exact hm.nonempty (String.toList_inj.mp (List.append_eq_nil_iff.mp hchars.symm).2)
  exact filesIn_of_readPattern (readPattern_child hm hd.plain) rfl hne

theorem filesIn_of_sorted {found : List Path} (hd : Literal d) (hm : m.Legible)
    (hfound : (expand t false (literalSteps d.lead ++ [Step.name m.tokens]) (startOf d)).filter t.isFile = found)
    (hsorted : found.Pairwise (fun p q => p.le q = true)) : filesIn t d m.text = .ok found := by
  rw [filesIn_eq_ok hd hm, hfound, Path.sort_of_sorted hsorted]

theorem filter_expand (hd : Literal d) (hnames : t.WellNamed) (hm : m.Legible) :
    (expand t false (literalSteps d.lead ++ [Step.name m.tokens]) (startOf d)).filter t.isFile =
      (entries t (goAlong (startOf d) d.lead) m.tokens).filter t.isFile := by
  have hlast (p : Path) : expand t false [.name m.tokens] p = entries t p m.tokens := by
    rw [expand_name]
    exact List.flatMap_singleton' _
  by_cases hdirectory : t.isDirectory (goAlong (startOf d) d.lead) = true
  · have hstart : Reached d.isAbsolute [] (startOf d) := reached_startOf d
    rw [hstart.expand_lead d.slash_not_mem_lead hd.goes hdirectory, hlast]
  -- Where the directory is missing there is no file on either side.
  · have hnone : (entries t (goAlong (startOf d) d.lead) m.tokens).filter t.isFile = [] := by
      rw [List.eq_nil_iff_forall_not_mem]
      intro r hr
      obtain ⟨name, hname, -, rfl, hfile⟩ := ((reached_lead hd).mem_entries hnames hm).mp hr
      exact hdirectory ((reached_lead hd).mem_namesIn_of_isFile hname hfile).1
    rw [hnone, List.eq_nil_iff_forall_not_mem]
    intro r hr
    obtain ⟨hr, hfile⟩ := List.mem_filter.mp hr
    have hentry := mem_expand_of_mem hr
    rw [hlast] at hentry
    exact List.eq_nil_iff_forall_not_mem.mp hnone r (List.mem_filter.mpr ⟨hentry, hfile⟩)

theorem filesIn_listed (hd : Literal d) (hnames : t.WellNamed) (hm : m.Legible) :
    ∃ found, filesIn t d m.text = .ok found ∧ Listed t d m.Admits found := by
  have hreached := reached_lead hd
  refine ⟨_, filesIn_eq_ok hd hm, ?_⟩
  rw [filter_expand hd hnames hm]
  constructor
  case increasing => exact Path.sort_increasing ((hreached.entries_apart hnames m).filter _)
  case mem_iff =>
    intro q
    rw [Path.mem_sort, hreached.mem_entries hnames hm]
    refine exists_congr fun name => and_congr_right fun hname => ?_
    rw [extend_goAlong hd hname.slashless]

theorem Listed.filter {Asked : String → Prop} {found : List Path} (h : Listed t d Asked found) (excluded : List String) :
    Listed t d (fun name => Asked name ∧ name ∉ excluded)
      (found.filter (fun p => !excluded.contains (p.fileName?.getD ""))) := by
  constructor
  case increasing => exact h.increasing.filter _
  case mem_iff =>
    intro q
    rw [List.mem_filter, h.mem_iff]
    constructor
    · rintro ⟨⟨name, hname, hasked, rfl, hfile⟩, hkept⟩
      rw [(d.inside_leadsLike hname).fileName] at hkept
      exact ⟨name, hname, ⟨hasked, by simpa using hkept⟩, rfl, hfile⟩
    · rintro ⟨name, hname, ⟨hasked, hkept⟩, rfl, hfile⟩
      rw [(d.inside_leadsLike hname).fileName]
      exact ⟨⟨name, hname, hasked, rfl, hfile⟩, by simpa using hkept⟩

end Glob

end NativeBuild
