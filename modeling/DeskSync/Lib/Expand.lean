import DeskSync.Lib.Proc

/-!
# Handlers whose calls are handlers

`Prog.expand f p` makes each call `c` of `p` by the calls of the handler `f c`: the same handler over smaller
atomic steps. What the calls of `f` are like carries over to it (`Only.expand`). Run alone it is the handler it
expands, where each `f c` run alone is the call `c` (`run_expand`); run among others it has more interleavings.
-/

namespace DeskSync.Proc.Prog

variable {C D : Type} {R : C → Type} {S : D → Type} {α β : Type}

def expand (f : (c : C) → Prog S (R c)) : Prog R α → Prog S α
  | ret a => ret a
  | call c k => f c >>= fun r => expand f (k r)

variable {f : (c : C) → Prog S (R c)}

@[simp] theorem expand_ret (a : α) : expand f (ret a) = ret a := rfl

@[simp] theorem expand_call (c : C) (k : R c → Prog R α) : expand f (call c k) = f c >>= fun r => expand f (k r) :=
  rfl

theorem Only.expand {P : C → Prop} {Q : D → Prop} {p : Prog R α} (h : Only P p)
    (hf : ∀ c, P c → Only Q (f c)) : Only Q (p.expand f) := by
  induction p with
  | ret a => trivial
  | call c k ih => exact (hf c h.1).bind fun r => ih r (h.2 r)

/-! ### Alone -/

section Run
variable {σ E : Type} {exec : E → (c : C) → σ → R c × σ} {exec' : E → (d : D) → σ → S d × σ} {e : E}

theorem run_bind_const (p : Prog S α) (g : α → Prog S β) (s : σ) :
    run exec' (fun _ => e) (p >>= g) s =
      run exec' (fun _ => e) (g (run exec' (fun _ => e) p s).1) (run exec' (fun _ => e) p s).2 := by
  induction p generalizing s with
  | ret a => rfl
  | call d k ih => exact ih _ _

/-- Where every call reads the same from outside. -/
theorem run_expand (h : ∀ c s, run exec' (fun _ => e) (f c) s = exec e c s) (p : Prog R α) (s : σ) :
    run exec' (fun _ => e) (p.expand f) s = run exec (fun _ => e) p s := by
  induction p generalizing s with
  | ret a => rfl
  | call c k ih => rw [expand_call, run_bind_const, h, ih, run_call]

end Run

end DeskSync.Proc.Prog
