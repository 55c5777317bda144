import DeskSync.Lib.Proc

/-!
# What a handler leaves behind on every way

Some calls leave a mark. `Prog.Emits mark p ms`: whatever its calls reply, the handler still leaves the marks `ms`, in
this order. Emission goes through `bind` (`Emits.bind`), and a transition takes the first mark off (`Emits.next`), so
the marks a handler has left and those it still owes are always those it set out with.
-/

namespace DeskSync.Proc.Prog

variable {C : Type} {R : C → Type} {α β M : Type} {mark : C → Option M}

def Emits (mark : C → Option M) : Prog R α → List M → Prop
  | ret _, ms => ms = []
  | call c k, ms => ∃ rest, ms = (mark c).toList ++ rest ∧ ∀ r, Emits mark (k r) rest

@[simp] theorem emits_ret {a : α} {ms : List M} : Emits mark (ret a : Prog R α) ms ↔ ms = [] := Iff.rfl

theorem Emits.next {c : C} {k : R c → Prog R α} {ms : List M} (h : Emits mark (call c k) ms) (r : R c) :
    ∃ rest, ms = (mark c).toList ++ rest ∧ Emits mark (k r) rest := by
  obtain ⟨rest, hms, hrest⟩ := h
  exact ⟨rest, hms, hrest r⟩

theorem Emits.bind {p : Prog R α} {f : α → Prog R β} {ms ms' : List M} (h : Emits mark p ms)
    (hf : ∀ a, Emits mark (f a) ms') : Emits mark (p >>= f) (ms ++ ms') := by
  induction p generalizing ms with
  | ret a =>
    rw [emits_ret.1 h]
    exact hf a
  | call c k ih =>
    obtain ⟨rest, rfl, hrest⟩ := h
    exact ⟨rest ++ ms', List.append_assoc _ _ _, fun r => ih r (hrest r)⟩

end DeskSync.Proc.Prog
