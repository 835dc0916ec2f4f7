import NativeBuild.Proofs.Text.Letters
import NativeBuild.Target

namespace NativeBuild

structure IsExtension (token : String) : Prop where
  nonempty : token ≠ ""
  trimmed : Text.Stops Text.isBlank token.toList ∧ Text.Stops Text.isBlank token.toList.reverse
  small : ∀ c ∈ token.toList, c.isUpper = false
  whole : ',' ∉ token.toList

namespace Profile

structure Canonical (p : Profile) : Prop where
  libc_valid : p.libc.validFor p.os = true
  firmware_arch : p.libc.isZkvm = true → p.arch = .riscv64
  extensions : ∀ token ∈ p.isa, IsExtension token
  distinct : p.isa.Nodup

def request (p : Profile) : TargetRequest where
  os := some p.os.name
  arch := some p.arch.name
  libc := some p.libc.name
  isa := if p.isa = [] then none else some (String.ofList (Text.joinPieces ',' (p.isa.map String.toList)))

end Profile

structure FirstsOf (ts us : List String) : Prop where
  mem_iff : ∀ t, t ∈ us ↔ t ∈ ts
  ordered : us.Pairwise (fun a b => ts.idxOf a < ts.idxOf b)

theorem FirstsOf.nodup {ts us : List String} (h : FirstsOf ts us) : us.Nodup :=
  h.ordered.imp fun hlt heq => by
    rw [heq] at hlt
    exact Nat.lt_irrefl _ hlt

namespace TargetRequest

variable {r r' : TargetRequest} {host : Host} {p : Profile} {os : Os} {arch : Arch} {libc : Libc} {isa : List String}
  {seen ts : List String} {s s' t : String}

structure Recased (r r' : TargetRequest) : Prop where
  os : Option.Rel Text.Recased r.os r'.os
  arch : Option.Rel Text.Recased r.arch r'.arch
  isa : Option.Rel Text.Recased r.isa r'.isa
  libc : Option.Rel Text.Recased r.libc r'.libc

def Respaced (s s' : String) : Prop :=
  List.Forall₂ Text.Padded (Text.pieces ',' s.toList) (Text.pieces ',' s'.toList)

def tokens (r : TargetRequest) : List String := (r.isa.map isaTokens).getD []

theorem resolve_eq_ok_iff :
    r.resolve host = .ok p ↔ r.settleOs host = .ok p.os ∧ r.settleArch host = .ok p.arch ∧
      r.settleLibc p.os p.arch = .ok p.libc ∧ r.settleIsa = .ok p.isa := by
  rw [resolve]
  constructor
  · intro h
    cases hos : r.settleOs host with
    | error e => simp [hos, bind, Except.bind] at h
    | ok os =>
      cases harch : r.settleArch host with
      | error e => simp [hos, harch, bind, Except.bind] at h
      | ok arch =>
        cases hlibc : r.settleLibc os arch with
        | error e => simp [hos, harch, hlibc, bind, Except.bind] at h
        | ok libc =>
          cases hisa : r.settleIsa with
          | error e => simp [hos, harch, hlibc, hisa, bind, Except.bind] at h
          | ok isa =>
            simp only [hos, harch, hlibc, hisa, bind, Except.bind, pure, Except.pure] at h
            obtain rfl := Except.ok.inj h
            exact ⟨rfl, rfl, hlibc, rfl⟩
  · rintro ⟨hos, harch, hlibc, hisa⟩
    simp only [hos, harch, hlibc, hisa, bind, Except.bind, pure, Except.pure]

theorem default_fits (os : Os) (arch : Arch) : fits (Libc.default os arch) os arch = true := by
  cases os <;> cases arch <;> rfl

theorem settleLibc_fits (h : r.settleLibc os arch = .ok libc) : fits libc os arch = true := by
  rw [settleLibc] at h
  split at h
  · split at h
    · split at h
      · next hfits => rwa [Except.ok.inj h] at hfits
      · cases h
    · cases h
  · rw [← Except.ok.inj h]
    exact default_fits os arch

theorem resolve_fits (h : r.resolve host = .ok p) : fits p.libc p.os p.arch = true :=
  settleLibc_fits (resolve_eq_ok_iff.mp h).2.2.1

theorem settleIsa_eq_ok_iff : r.settleIsa = .ok isa ↔ "" ∉ r.tokens ∧ isa = firsts [] r.tokens := by
  rw [settleIsa, tokens]
  cases r.isa with
  | none => simp [firsts, eq_comm]
  | some s =>
    by_cases hempty : "" ∈ isaTokens s
    · simp [hempty]
    · simp [hempty, eq_comm]

theorem isExtension_of_mem (h : t ∈ isaTokens s) (hne : t ≠ "") : IsExtension t := by
  obtain ⟨piece, hpiece, rfl⟩ := List.mem_map.mp h
  rw [Text.lowerAscii, String.toList_ofList, ← Text.trim_map_toLower]
  have hwhole : ',' ∉ piece.map Char.toLower := by
    intro hmem
    obtain ⟨c, hc, hcomma⟩ := List.mem_map.mp hmem
    exact Text.not_mem_of_mem_pieces hpiece (Text.toLower_eq_comma_iff.mp hcomma ▸ hc)
  constructor
  · rwa [Text.lowerAscii, String.toList_ofList, ← Text.trim_map_toLower] at hne
  · simpa using Text.stops_trim (piece.map Char.toLower)
  · intro c hc
    rw [String.toList_ofList] at hc
    obtain ⟨c, -, rfl⟩ := List.mem_map.mp (Text.mem_of_mem_trim hc)
    exact Text.not_isUpper_toLower c
  · rw [String.toList_ofList]
    exact fun hmem => hwhole (Text.mem_of_mem_trim hmem)

theorem mem_firsts : t ∈ firsts seen ts ↔ t ∈ seen ∨ t ∈ ts := by
  induction ts generalizing seen with
  | nil => simp [firsts]
  | cons u ts ih =>
    rw [firsts]
    split
    · next hu =>
      rw [ih, List.mem_cons]
      constructor
      · rintro (h | h)
        · exact .inl h
        · exact .inr (.inr h)
      · rintro (h | rfl | h)
        · exact .inl h
        · exact .inl hu
        · exact .inr h
    · rw [ih, List.mem_append, List.mem_singleton, List.mem_cons, or_assoc]

theorem firsts_ordered (front : List String) (hmem : ∀ t, t ∈ seen ↔ t ∈ front)
    (h : seen.Pairwise (fun a b => (front ++ ts).idxOf a < (front ++ ts).idxOf b)) :
    (firsts seen ts).Pairwise (fun a b => (front ++ ts).idxOf a < (front ++ ts).idxOf b) := by
  -- What was seen is what stands in `front`, ordered by where it stands there first.
  induction ts generalizing seen front with
  | nil => exact h
  | cons u ts ih =>
    have hsplit : front ++ u :: ts = (front ++ [u]) ++ ts := by simp
    rw [firsts]
    split
    · next hu =>
      rw [hsplit] at h ⊢
      refine ih _ (fun t => ?_) h
      rw [hmem, List.mem_append, List.mem_singleton, iff_self_or]
      rintro rfl
      exact (hmem t).mp hu
    · next hu =>
      have hfirst : (front ++ u :: ts).idxOf u = front.length := by
        rw [List.idxOf_append_of_notMem (mt (hmem u).mpr hu), List.idxOf_cons_self, Nat.add_zero]
      have hbefore : ∀ a ∈ seen, (front ++ u :: ts).idxOf a < (front ++ u :: ts).idxOf u := by
        intro a ha
        rw [hfirst, List.idxOf_append_of_mem ((hmem a).mp ha)]
        exact List.idxOf_lt_length_of_mem ((hmem a).mp ha)
      have hseen := List.pairwise_append.mpr ⟨h, List.pairwise_singleton _ u, fun a ha b hb => by
        rw [List.mem_singleton.mp hb]
        exact hbefore a ha⟩
      rw [hsplit] at hseen ⊢
      refine ih _ (fun t => ?_) hseen
      rw [List.mem_append, hmem, List.mem_append]

theorem firstsOf_firsts (ts : List String) : FirstsOf ts (firsts [] ts) := by
  constructor
  · intro t
    simp [mem_firsts]
  · exact firsts_ordered [] (by simp) .nil

theorem firsts_of_nodup (h : (seen ++ ts).Nodup) : firsts seen ts = seen ++ ts := by
  induction ts generalizing seen with
  | nil => simp [firsts]
  | cons u ts ih =>
    have hu : u ∉ seen := fun hmem => (List.nodup_append.mp h).2.2 u hmem u List.mem_cons_self rfl
    have hsplit : seen ++ u :: ts = (seen ++ [u]) ++ ts := by simp
    rw [firsts, if_neg hu, hsplit, ih (hsplit ▸ h)]

theorem canonical_of_resolve (h : r.resolve host = .ok p) : p.Canonical := by
  have hfits := resolve_fits h
  rw [fits, Bool.and_eq_true] at hfits
  obtain ⟨hvalid, harch⟩ := hfits
  obtain ⟨hnonempty, hisa⟩ := settleIsa_eq_ok_iff.mp (resolve_eq_ok_iff.mp h).2.2.2
  have hfirsts := firstsOf_firsts r.tokens
  constructor
  · exact hvalid
  · intro hzkvm
    simpa [hzkvm] using harch
  · intro token htoken
    rw [hisa, hfirsts.mem_iff] at htoken
    have hne : token ≠ "" := fun hnil => hnonempty (hnil ▸ htoken)
    rw [tokens] at htoken
    cases hr : r.isa with
    | none => simp [hr] at htoken
    | some s =>
      rw [hr] at htoken
      exact isExtension_of_mem htoken hne
  · rw [hisa]
    exact hfirsts.nodup

theorem ofName_name_os (os : Os) : Os.ofName? os.name = some os := by cases os <;> rfl

theorem ofName_name_arch (arch : Arch) : Arch.ofName? arch.name = some arch := by cases arch <;> rfl

theorem ofName_name_libc (libc : Libc) : Libc.ofName? libc.name = some libc := by cases libc <;> rfl

theorem isaTokens_joined (hne : isa ≠ []) (h : ∀ token ∈ isa, IsExtension token) :
    isaTokens (String.ofList (Text.joinPieces ',' (isa.map String.toList))) = isa := by
  have hwhole : ∀ piece ∈ isa.map String.toList, ',' ∉ piece := by
    intro piece hpiece
    obtain ⟨token, htoken, rfl⟩ := List.mem_map.mp hpiece
    exact (h token htoken).whole
  have hkept : ∀ token ∈ isa, Text.lowerAscii (String.ofList (Text.trim token.toList)) = token := by
    intro token htoken
    obtain ⟨-, ⟨hstart, hfinish⟩, hsmall, -⟩ := h token htoken
    rw [Text.trim_of_stops hstart hfinish, String.ofList_toList, Text.lowerAscii_of_small hsmall]
  rw [isaTokens, String.toList_ofList, Text.pieces_joinPieces (by simpa using hne) hwhole, List.map_map]
  exact (List.map_congr_left hkept).trans (List.map_id _)

theorem tokens_request (h : p.Canonical) : p.request.tokens = p.isa := by
  rw [tokens, Profile.request]
  by_cases hnil : p.isa = []
  · simp [hnil]
  · rw [if_neg hnil]
    exact isaTokens_joined hnil h.extensions

theorem resolve_request (h : p.Canonical) (host : Host) : p.request.resolve host = .ok p := by
  have hfits : fits p.libc p.os p.arch = true := by
    rw [fits, h.libc_valid, Bool.true_and]
    cases hzkvm : p.libc.isZkvm with
    | false => rfl
    | true => simp [h.firmware_arch hzkvm]
  refine resolve_eq_ok_iff.mpr ⟨?_, ?_, ?_, ?_⟩
  · simp [settleOs, Profile.request, ofName_name_os]
  · simp [settleArch, Profile.request, ofName_name_arch]
  · simp [settleLibc, Profile.request, ofName_name_libc, hfits]
  · rw [settleIsa_eq_ok_iff, tokens_request h]
    refine ⟨fun hempty => (h.extensions "" hempty).nonempty rfl, ?_⟩
    rw [firsts_of_nodup (by simpa using h.distinct), List.nil_append]

theorem isaTokens_eq_of_lowerAscii (h : Text.lowerAscii s' = Text.lowerAscii s) : isaTokens s' = isaTokens s := by
  have htokens (s : String) :
      isaTokens s = (Text.pieces ',' (Text.lowerAscii s).toList).map (fun t => String.ofList (Text.trim t)) := by
    have hpieces := Text.pieces_map (fun _ => Text.toLower_eq_comma_iff) s.toList
    rw [Text.lowerAscii, String.toList_ofList, hpieces, List.map_map, isaTokens]
    refine List.map_congr_left fun piece _ => ?_
    rw [Text.lowerAscii, String.toList_ofList, ← Text.trim_map_toLower]
    rfl
  rw [htokens s', h, htokens s]

theorem isaTokens_respaced (h : Respaced s s') : isaTokens s' = isaTokens s := by
  rw [isaTokens, isaTokens]
  rw [Respaced] at h
  generalize Text.pieces ',' s.toList = pieces at h
  generalize Text.pieces ',' s'.toList = pieces' at h
  induction h with
  | nil => rfl
  | cons hpadded _ ih => rw [List.map_cons, List.map_cons, ih, hpadded.trim_eq]

theorem settleIsa_congr (h : r'.tokens = r.tokens) (hisa : r.settleIsa = .ok isa) : r'.settleIsa = .ok isa := by
  rw [settleIsa_eq_ok_iff] at hisa ⊢
  rwa [h]

theorem tokens_recased (h : Option.Rel Text.Recased r.isa r'.isa) : r'.tokens = r.tokens := by
  rw [tokens, tokens]
  generalize r.isa = isa at h
  generalize r'.isa = isa' at h
  cases h with
  | none => rfl
  | some hs => exact isaTokens_eq_of_lowerAscii hs.lowerAscii_eq

theorem settleOs_recased (h : Option.Rel Text.Recased r.os r'.os) (hos : r.settleOs host = .ok os) :
    r'.settleOs host = .ok os := by
  rw [settleOs] at hos ⊢
  generalize r.os = asked at h hos
  generalize r'.os = asked' at h
  cases h with
  | none => exact hos
  | @some s s' hs =>
    have hname : Os.ofName? s' = Os.ofName? s := by rw [Os.ofName?, hs.lowerAscii_eq, Os.ofName?]
    cases hfound : Os.ofName? s with
    | none => simp [hfound] at hos
    | some os' => simpa [hname, hfound] using hos

theorem settleArch_recased (h : Option.Rel Text.Recased r.arch r'.arch) (harch : r.settleArch host = .ok arch) :
    r'.settleArch host = .ok arch := by
  rw [settleArch] at harch ⊢
  generalize r.arch = asked at h harch
  generalize r'.arch = asked' at h
  cases h with
  | none => exact harch
  | @some s s' hs =>
    have hname : Arch.ofName? s' = Arch.ofName? s := by rw [Arch.ofName?, hs.lowerAscii_eq, Arch.ofName?]
    cases hfound : Arch.ofName? s with
    | none => simp [hfound] at harch
    | some arch' => simpa [hname, hfound] using harch

theorem settleLibc_recased (h : Option.Rel Text.Recased r.libc r'.libc) (hlibc : r.settleLibc os arch = .ok libc) :
    r'.settleLibc os arch = .ok libc := by
  rw [settleLibc] at hlibc ⊢
  generalize r.libc = asked at h hlibc
  generalize r'.libc = asked' at h
  cases h with
  | none => exact hlibc
  | @some s s' hs =>
    have hname : Libc.ofName? s' = Libc.ofName? s := by rw [Libc.ofName?, hs.lowerAscii_eq, Libc.ofName?]
    cases hfound : Libc.ofName? s with
    | none => simp [hfound] at hlibc
    | some libc' => simpa [hname, hfound] using hlibc

theorem resolve_recased (h : r.Recased r') (hresolve : r.resolve host = .ok p) : r'.resolve host = .ok p := by
  obtain ⟨hos, harch, hlibc, hisa⟩ := resolve_eq_ok_iff.mp hresolve
  exact resolve_eq_ok_iff.mpr ⟨settleOs_recased h.os hos, settleArch_recased h.arch harch,
    settleLibc_recased h.libc hlibc, settleIsa_congr (tokens_recased h.isa) hisa⟩

theorem resolve_respaced (hr : r.isa = some s) (h : Respaced s s') (hresolve : r.resolve host = .ok p) :
    TargetRequest.resolve { r with isa := some s' } host = .ok p := by
  obtain ⟨hos, harch, hlibc, hisa⟩ := resolve_eq_ok_iff.mp hresolve
  have htokens : ({ r with isa := some s' } : TargetRequest).tokens = r.tokens := by
    rw [tokens, tokens, hr]
    exact isaTokens_respaced h
  exact resolve_eq_ok_iff.mpr ⟨hos, harch, hlibc, settleIsa_congr htokens hisa⟩

structure Settled (r : TargetRequest) (host : Host) (p : Profile) : Prop where
  canonical : p.Canonical
  firsts : FirstsOf r.tokens p.isa
  again : ∀ host', p.request.resolve host' = .ok p
  recased : ∀ r', r.Recased r' → r'.resolve host = .ok p
  respaced : ∀ s s', r.isa = some s → Respaced s s' → TargetRequest.resolve { r with isa := some s' } host = .ok p

theorem resolve_settled (h : r.resolve host = .ok p) : r.Settled host p where
  canonical := canonical_of_resolve h
  firsts := by
    rw [(settleIsa_eq_ok_iff.mp (resolve_eq_ok_iff.mp h).2.2.2).2]
    exact firstsOf_firsts r.tokens
  again := resolve_request (canonical_of_resolve h)
  recased _ hr := resolve_recased hr h
  respaced _ _ hr hs := resolve_respaced hr hs h

def repeating : TargetRequest where
  os := some "Linux"
  arch := some "AMD64"
  isa := some " AVX2,bmi,\tavx2"

theorem repeating_resolve_settled :
    repeating.resolve {} = .ok ⟨.linux, .x64, .glibc, ["avx2", "bmi"]⟩ ∧
      repeating.Settled {} ⟨.linux, .x64, .glibc, ["avx2", "bmi"]⟩ := by
  have hresolve : repeating.resolve {} = .ok ⟨.linux, .x64, .glibc, ["avx2", "bmi"]⟩ := by decide +kernel
  exact ⟨hresolve, resolve_settled hresolve⟩

end TargetRequest

end NativeBuild
