import NativeBuild.Proofs.Files.Effects

namespace NativeBuild.FileTree

structure SameResult {α : Type} (R : FileTree → FileTree → Prop) (x y : α × FileTree) : Prop where
  result : x.1 = y.1
  files : R x.2 y.2

structure Congruence (R : FileTree → FileTree → Prop) (P : Path → Prop) : Prop where
  exists? : ∀ {s t : FileTree} {p : Path}, R s t → P p → s.exists? p = t.exists? p
  isDirectory : ∀ {s t : FileTree} {p : Path}, R s t → P p → s.isDirectory p = t.isDirectory p
  makeDirectory : ∀ {s t : FileTree} {p : Path}, R s t → P p →
    SameResult R (s.makeDirectory p) (t.makeDirectory p)
  write : ∀ {s t : FileTree} {p : Path} (bytes : List UInt8), R s t → P p →
    SameResult R (s.write p bytes) (t.write p bytes)

namespace Congruence

variable {R : FileTree → FileTree → Prop} {P : Path → Prop} {s t : FileTree} {p : Path}
  {x y : FileResult Unit}

theorem orThere (hR : Congruence R P) (h : SameResult R x y) (hp : P p) :
    SameResult R (FileTree.orThere p x) (FileTree.orThere p y) := by
  obtain ⟨made, s⟩ := x
  obtain ⟨made', t⟩ := y
  obtain ⟨rfl : made = made', hfiles : R s t⟩ := h
  cases made with
  | ok _ => exact ⟨rfl, hfiles⟩
  | error e =>
    simp only [FileTree.orThere, hR.isDirectory hfiles hp]
    split <;> exact ⟨rfl, hfiles⟩

theorem duringBoth (doing : String) (h : SameResult R x y) :
    SameResult R (during doing x) (during doing y) := by
  obtain ⟨made, s⟩ := x
  obtain ⟨made', t⟩ := y
  obtain ⟨rfl : made = made', hfiles : R s t⟩ := h
  cases made <;> exact ⟨rfl, hfiles⟩

theorem makeDirectories (hR : Congruence R P) {ps : List Path} (h : R s t) (hps : ∀ p ∈ ps, P p) :
    SameResult R (s.makeDirectories ps) (t.makeDirectories ps) := by
  induction ps generalizing s t with
  | nil => exact ⟨rfl, h⟩
  | cons p parents ih =>
    obtain ⟨hp, hrest⟩ := List.forall_mem_cons.mp hps
    by_cases htext : p.text = ""
    · rw [FileTree.makeDirectories, FileTree.makeDirectories, if_pos htext, if_pos htext]
      exact ⟨rfl, h⟩
    · have hmade := hR.makeDirectory h hp
      have hparents := ih h hrest
      by_cases hmissing : (t.makeDirectory p).1 = .error .notFound
      · rw [makeDirectories_of_notFound _ htext hmissing,
          makeDirectories_of_notFound _ htext (hmade.result.trans hmissing)]
        revert hparents
        obtain ⟨made, s'⟩ := s.makeDirectories parents
        obtain ⟨made', t'⟩ := t.makeDirectories parents
        rintro ⟨rfl : made = made', hfiles : R s' t'⟩
        cases made with
        | error e => exact ⟨rfl, hfiles⟩
        | ok _ => exact hR.orThere (hR.makeDirectory hfiles hp) hp
      · rw [makeDirectories_of_ne htext hmissing, makeDirectories_of_ne htext (hmade.result ▸ hmissing)]
        exact hR.orThere hmade hp

theorem prepareRoom (hR : Congruence R P) (h : R s t) (hroom : ∀ q ∈ roomFor p, P q) :
    SameResult R (s.prepareRoom p) (t.prepareRoom p) := by
  rw [FileTree.prepareRoom, FileTree.prepareRoom]
  rw [roomFor] at hroom
  cases hparent : room? p with
  | none => exact ⟨rfl, h⟩
  | some parent =>
    have hancestry : ∀ q ∈ ancestry parent, P q := by simpa [hparent] using hroom
    have hself : P parent := hancestry parent (mem_ancestry_self parent)
    apply duringBoth
    rw [ensureDirectory, ensureDirectory, hR.exists? h hself]
    split
    · exact ⟨rfl, h⟩
    · exact hR.makeDirectories h hancestry

theorem writeText (hR : Congruence R P) (h : R s t) (hp : P p) (hroom : ∀ q ∈ roomFor p, P q) (text : String) :
    SameResult R (s.writeText p text) (t.writeText p text) := by
  have hmade := hR.prepareRoom h hroom
  rw [writeText_eq, writeText_eq]
  revert hmade
  obtain ⟨made, s'⟩ := s.prepareRoom p
  obtain ⟨made', t'⟩ := t.prepareRoom p
  rintro ⟨rfl : made = made', hfiles : R s' t'⟩
  cases made with
  | error e => exact ⟨rfl, hfiles⟩
  | ok _ => exact duringBoth _ (hR.write _ hfiles hp)

end Congruence

end NativeBuild.FileTree
