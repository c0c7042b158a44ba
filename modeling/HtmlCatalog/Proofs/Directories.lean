import HtmlCatalog.File.Tree
import Mathlib.Tactic.Common

/-! What work on a file tree leaves. A path is followed through directories only, so a path that
leads somewhere leads there in every tree with the same directories. To make directories adds
nothing but directories, and to write a file changes the entry at one location, which is no
directory before or after. -/
namespace HtmlCatalog
namespace FileTree

variable {t u v : FileTree} {p : Path} {l k : Location} {name : String} {bytes : List UInt8}

def file? (t : FileTree) (l : Location) : Option (List UInt8) :=
  match t.get? l with
  | some (.file bytes) => some bytes
  | _ => none

@[simp] theorem get?_nil (t : FileTree) : t.get? [] = some .directory := rfl

theorem ne_nil_of_get? (h : t.get? l ≠ some .directory) : l ≠ [] := by
  rintro rfl
  exact h rfl

theorem ne_nil_of_get?_eq_none (h : t.get? l = none) : l ≠ [] := by
  rintro rfl
  simp at h

section Work

variable {α β : Type} {f : FileTree → Except Fault FileTree}

theorem attempt_eq_ok_iff {x : Unit} : attempt f t = .ok x u ↔ f t = .ok u := by
  unfold attempt
  cases f t <;> simp

theorem work_pure_eq_ok_iff {a b : α} : (pure a : Work α) t = .ok b u ↔ a = b ∧ t = u := by
  change EStateM.Result.ok a t = .ok b u ↔ _
  simp

/-- Work in two parts is done if both are, one after the other. -/
theorem work_bind_eq_ok_iff {x : Work α} {g : α → Work β} {b : β} :
    (x >>= g) t = .ok b v ↔ ∃ a u, x t = .ok a u ∧ g a u = .ok b v := by
  change EStateM.bind x g t = .ok b v ↔ _
  unfold EStateM.bind
  cases x t <;> simp

end Work

section Following

/-- All directories of `t` are directories of `u`. -/
structure Keeps (t u : FileTree) : Prop where
  workingDirectory : u.workingDirectory = t.workingDirectory
  directories : ∀ l, t.get? l = some .directory → u.get? l = some .directory

theorem keeps_put {e : FileEntry} (h : t.get? l ≠ some .directory) : t.Keeps (t.put l e) where
  workingDirectory := rfl
  directories k hk := by
    rw [get?_put_of_ne t (by rintro rfl; exact h hk)]
    exact hk

theorem put_file_keeps (h : t.get? l ≠ some .directory) : (t.put l (.file bytes)).Keeps t where
  workingDirectory := rfl
  directories k hk := by
    by_cases hkl : k = l
    · subst hkl
      simp [get?_put_self t (ne_nil_of_get? h)] at hk
    · rwa [get?_put_of_ne t hkl] at hk

theorem step_eq_ok_iff :
    t.step l name = .ok k ↔ t.get? l = some .directory ∧
      if name = ".." then k = l.dropLast else name.utf8ByteSize ≤ nameLimit ∧ k = l ++ [name] := by
  unfold step
  split
  · simp_all
  · simp_all
  · rename_i h
    split_ifs with hup hlong
    · simp [h, eq_comm (a := k)]
    · simp [h, Nat.not_le.mpr hlong]
    · simp [h, Nat.not_lt.mp hlong, eq_comm (a := k)]

theorem Keeps.step (h : t.Keeps u) (hl : t.step l name = .ok k) : u.step l name = .ok k := by
  rw [step_eq_ok_iff] at hl ⊢
  exact ⟨h.directories l hl.1, hl.2⟩

theorem Keeps.follow (h : t.Keeps u) {names : List String}
    (hl : names.foldlM t.step l = .ok k) : names.foldlM u.step l = .ok k := by
  induction names generalizing l with
  | nil => exact hl
  | cons name names ih =>
    rw [List.foldlM_cons] at hl ⊢
    cases hstep : t.step l name with
    | error o => simp [hstep, bind, Except.bind] at hl
    | ok next =>
      rw [hstep] at hl
      rw [h.step hstep]
      exact ih hl

theorem Keeps.locate (h : t.Keeps u) (hp : t.locate p = .ok l) : u.locate p = .ok l := by
  unfold FileTree.locate at hp ⊢
  split_ifs at hp ⊢
  have hstart : u.start p = t.start p := by rw [start, start, h.workingDirectory]
  rw [hstart]
  exact h.follow hp

theorem follow_of_locate (h : t.locate p = .ok l) : p.parts.foldlM t.step (t.start p) = .ok l := by
  unfold locate at h
  split_ifs at h
  exact h

/-- A name in a directory leads to the location below that of the directory. -/
theorem eq_of_locate_child (hp : t.locate p = .ok l) (hname : name ≠ "..")
    (hchild : t.locate (p.child name) = .ok k) : k = l ++ [name] := by
  have hfollow := follow_of_locate hchild
  rw [Path.child, List.foldlM_append] at hfollow
  have hparent : p.parts.foldlM t.step (t.start { p with parts := p.parts ++ [name] }) = .ok l :=
    follow_of_locate hp
  rw [hparent] at hfollow
  have hstep : t.step l name = .ok k := by
    cases h : t.step l name with
    | error o => simp [h, bind, Except.bind] at hfollow
    | ok next => simpa [h, bind, Except.bind, pure, Except.pure] using hfollow
  rw [step_eq_ok_iff, if_neg hname] at hstep
  exact hstep.2.2

theorem lookup_eq_ok_iff {e : FileEntry} :
    t.lookup p = .ok e ↔ ∃ l, t.locate p = .ok l ∧ t.get? l = some e := by
  unfold lookup
  cases t.locate p with
  | error o => simp
  | ok l => cases h : t.get? l <;> simp [h]

end Following

section Writing

theorem write_eq_ok_iff :
    t.write p bytes = .ok u ↔ ∃ l, t.locate p = .ok l ∧ t.get? l ≠ some .directory ∧
      (t.get? l = none → t.get? l.dropLast = some .directory) ∧ u = t.put l (.file bytes) := by
  unfold write
  cases t.locate p with
  | error o => simp
  | ok l =>
    cases hl : t.get? l with
    | none =>
      by_cases hparent : t.get? l.dropLast = some .directory <;>
        simp [hl, hparent, eq_comm (a := u)]
    | some e => cases e <;> simp [hl, eq_comm (a := u)]

theorem makeDirectory_eq_ok_iff :
    t.makeDirectory p = .ok u ↔ ∃ l, t.locate p = .ok l ∧
      (t.get? l = some .directory ∧ u = t ∨
        t.get? l = none ∧ t.get? l.dropLast = some .directory ∧ u = t.put l .directory) := by
  unfold makeDirectory
  cases t.locate p with
  | error o => simp
  | ok l =>
    cases hl : t.get? l with
    | none =>
      by_cases hparent : t.get? l.dropLast = some .directory <;>
        simp [hl, hparent, eq_comm (a := u)]
    | some e => cases e <;> simp [hl, eq_comm (a := u)]

end Writing

section Making

/-- What is at a location stays, or a directory is made where there was nothing. -/
def Stays (t u : FileTree) (l : Location) : Prop :=
  u.get? l = t.get? l ∨ t.get? l = none ∧ u.get? l = some .directory

theorem Stays.file? (h : t.Stays u l) : u.file? l = t.file? l := by
  unfold FileTree.file?
  rcases h with hu | ⟨ht, hu⟩
  · rw [hu]
  · rw [ht, hu]

/-- `u` is `t` with more directories. -/
structure Gains (t u : FileTree) : Prop where
  workingDirectory : u.workingDirectory = t.workingDirectory
  entries : ∀ l, t.Stays u l

theorem Gains.refl (t : FileTree) : t.Gains t := ⟨rfl, fun _ => .inl rfl⟩

theorem Gains.trans (h : t.Gains u) (h' : u.Gains v) : t.Gains v where
  workingDirectory := h'.workingDirectory.trans h.workingDirectory
  entries l := by
    rcases h.entries l with hu | ⟨ht, hu⟩ <;> rcases h'.entries l with hv | ⟨hu', hv⟩
    · exact .inl (hv.trans hu)
    · exact .inr ⟨hu.symm.trans hu', hv⟩
    · exact .inr ⟨ht, hv.trans hu⟩
    · exact .inr ⟨ht, hv⟩

theorem Gains.keeps (h : t.Gains u) : t.Keeps u where
  workingDirectory := h.workingDirectory
  directories l hl := by
    rcases h.entries l with hu | ⟨hnone, -⟩
    · exact hu.trans hl
    · simp [hnone] at hl

theorem gains_put (h : t.get? l = none) : t.Gains (t.put l .directory) where
  workingDirectory := rfl
  entries k := by
    by_cases hkl : k = l
    · subst hkl
      exact .inr ⟨h, get?_put_self t (ne_nil_of_get?_eq_none h) _⟩
    · exact .inl (get?_put_of_ne t hkl _)

/-- The directory at a path is there, after more directories may have been made. -/
structure Made (p : Path) (t u : FileTree) : Prop where
  gains : t.Gains u
  directory : u.lookup p = .ok .directory

theorem made_of_makeDirectory (h : t.makeDirectory p = .ok u) : Made p t u := by
  obtain ⟨l, hl, ⟨hdirectory, rfl⟩ | ⟨hnone, -, rfl⟩⟩ := makeDirectory_eq_ok_iff.mp h
  · exact ⟨.refl u, lookup_eq_ok_iff.mpr ⟨l, hl, hdirectory⟩⟩
  · have hgains := gains_put hnone
    refine ⟨hgains, lookup_eq_ok_iff.mpr ⟨l, hgains.keeps.locate hl, ?_⟩⟩
    exact get?_put_self t (ne_nil_of_get?_eq_none hnone) _

theorem made_of_makeDirectories {fuel : Nat} (h : makeDirectories p fuel t = .ok () u) :
    Made p t u := by
  induction fuel generalizing p t u with
  | zero => exact made_of_makeDirectory (attempt_eq_ok_iff.mp h)
  | succ fuel ih =>
    unfold makeDirectories at h
    split at h
    · split_ifs at h
      obtain ⟨⟨⟩, w, hparent, hlast⟩ := work_bind_eq_ok_iff.mp h
      have hmade := made_of_makeDirectory (attempt_eq_ok_iff.mp hlast)
      exact ⟨(ih hparent).gains.trans hmade.gains, hmade.directory⟩
    · simp at h
    · rename_i w hw
      obtain rfl : w = u := by simpa using h
      exact made_of_makeDirectory hw

theorem made_of_ensureDirectory (h : ensureDirectory p t = .ok () u) : Made p t u :=
  made_of_makeDirectories h

theorem ensureDirectory_of_lookup (h : t.lookup p = .ok .directory) :
    ensureDirectory p t = .ok () t := by
  obtain ⟨l, hl, hdirectory⟩ := lookup_eq_ok_iff.mp h
  have hmake : t.makeDirectory p = .ok t :=
    makeDirectory_eq_ok_iff.mpr ⟨l, hl, .inl ⟨hdirectory, rfl⟩⟩
  rw [ensureDirectory]
  cases p.parts.length with
  | zero => exact attempt_eq_ok_iff.mpr hmake
  | succ fuel => simp only [makeDirectories, hmake]

end Making

end FileTree
end HtmlCatalog
