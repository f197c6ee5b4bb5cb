import Mathlib.Algebra.Ring.Nat
import Mathlib.Tactic.Common

/-!
# Programs over atomic operations

A program is a tree: it stops with a value, or performs one operation and goes on with the answer.
Each operation is one atomic step, so a program that shares its state with others can be
interrupted between any two of them.  Nothing here depends on what the operations are.
-/

namespace Conc

/-- A program over the operations `Op`, each answered by a value of type `Res op`. -/
inductive Prog (Op : Type) (Res : Op → Type) (α : Type) : Type where
  | ret (a : α)
  | call (op : Op) (k : Res op → Prog Op Res α)

namespace Prog

variable {Op : Type} {Res : Op → Type} {α β γ : Type}

/-- Sequencing: the second program starts where the first one stops. -/
def bind : Prog Op Res α → (α → Prog Op Res β) → Prog Op Res β
  | .ret a, f => f a
  | .call op k, f => .call op fun r => (k r).bind f

instance : Monad (Prog Op Res) where
  pure := .ret
  bind := Prog.bind

/-- The program that performs one operation and stops with its answer. -/
def op (o : Op) : Prog Op Res (Res o) := .call o .ret

@[simp] theorem pure_eq (a : α) : (pure a : Prog Op Res α) = .ret a := rfl

@[simp] theorem ret_bind (a : α) (f : α → Prog Op Res β) :
    (ret a : Prog Op Res α) >>= f = f a := rfl

@[simp] theorem call_bind (o : Op) (k : Res o → Prog Op Res α) (f : α → Prog Op Res β) :
    call o k >>= f = call o fun r => k r >>= f := rfl

@[simp] theorem op_bind (o : Op) (f : Res o → Prog Op Res β) :
    (op o : Prog Op Res (Res o)) >>= f = call o f := rfl

theorem bind_ret (p : Prog Op Res α) : p >>= ret = p := by
  induction p with
  | ret a => rfl
  | call o k ih => simp only [call_bind, ih]

theorem bind_assoc (p : Prog Op Res α) (f : α → Prog Op Res β) (g : β → Prog Op Res γ) :
    p >>= f >>= g = p >>= fun a => f a >>= g := by
  induction p with
  | ret a => rfl
  | call o k ih => simp only [call_bind, ih]

instance : LawfulMonad (Prog Op Res) :=
  LawfulMonad.mk' _ bind_ret (fun _ _ => rfl) bind_assoc

/-- Runs a program for its effect. -/
def discard (p : Prog Op Res α) : Prog Op Res Unit := do
  let _ ← p
  pure ()

def returned : Prog Op Res α → Bool
  | .ret _ => true
  | .call .. => false

theorem eq_ret_of_returned {p : Prog Op Res Unit} (h : p.returned = true) : p = .ret () := by
  cases p with
  | ret a => rfl
  | call o k => cases h

/-! ## Which operations a program can perform -/

/-- Every operation that the program can come to satisfies `P`, whatever the answers are. -/
def All (P : Op → Prop) : Prog Op Res α → Prop
  | .ret _ => True
  | .call o k => P o ∧ ∀ r, (k r).All P

variable {P : Op → Prop}

@[simp] theorem all_ret {a : α} : (ret a : Prog Op Res α).All P ↔ True := Iff.rfl

@[simp] theorem all_call {o : Op} {k : Res o → Prog Op Res α} :
    (call o k).All P ↔ P o ∧ ∀ r, (k r).All P := Iff.rfl

@[simp] theorem all_op {o : Op} : (op o : Prog Op Res (Res o)).All P ↔ P o := by
  simp [op]

@[simp] theorem all_ite {c : Prop} [Decidable c] {p q : Prog Op Res α} :
    (if c then p else q).All P ↔ (c → p.All P) ∧ (¬c → q.All P) := by
  split <;> simp [*]

theorem all_of (hP : ∀ o, P o) (p : Prog Op Res α) : p.All P := by
  induction p with
  | ret a => trivial
  | call o k ih => exact ⟨hP o, ih⟩

theorem All.mono {P' : Op → Prop} (hP : ∀ o, P o → P' o) {p : Prog Op Res α} (hp : p.All P) :
    p.All P' := by
  induction p with
  | ret a => trivial
  | call o k ih => exact ⟨hP o hp.1, fun r => ih r (hp.2 r)⟩

theorem All.and {P' : Op → Prop} {p : Prog Op Res α} (hp : p.All P) (hp' : p.All P') :
    p.All fun o => P o ∧ P' o := by
  induction p with
  | ret a => trivial
  | call o k ih => exact ⟨⟨hp.1, hp'.1⟩, fun r => ih r (hp.2 r) (hp'.2 r)⟩

theorem All.bind {p : Prog Op Res α} {f : α → Prog Op Res β} (hp : p.All P)
    (hf : ∀ a, (f a).All P) : (p >>= f).All P := by
  induction p with
  | ret a => exact hf a
  | call o k ih => exact ⟨hp.1, fun r => ih r (hp.2 r)⟩

theorem All.discard {p : Prog Op Res α} (hp : p.All P) : p.discard.All P :=
  hp.bind fun _ => trivial

/-- The program stops only with values that satisfy `Q`, whatever the answers are. -/
def Returns (Q : α → Prop) : Prog Op Res α → Prop
  | .ret a => Q a
  | .call _ k => ∀ r, (k r).Returns Q

theorem returns_ite {Q : α → Prop} {c : Prop} [Decidable c] {p q : Prog Op Res α} :
    (if c then p else q).Returns Q ↔ (c → p.Returns Q) ∧ (¬c → q.Returns Q) := by
  split <;> simp [*]

/-- Sequencing, where the second program may rely on what the first one stops with. -/
theorem All.bind_returns {Q : α → Prop} {p : Prog Op Res α} {f : α → Prog Op Res β} (hp : p.All P)
    (hQ : p.Returns Q) (hf : ∀ a, Q a → (f a).All P) : (p >>= f).All P := by
  induction p with
  | ret a => exact hf a hQ
  | call o k ih => exact ⟨hp.1, fun r => ih r (hp.2 r) (hQ r)⟩

/-! ## Programs that run other programs -/

section Interp

variable {Op' : Type} {Res' : Op' → Type} (f : (o : Op) → Prog Op' Res' (Res o))

/-- Performs every operation by a program over other operations. -/
def interp : Prog Op Res α → Prog Op' Res' α
  | .ret a => .ret a
  | .call o k => f o >>= fun r => (k r).interp

@[simp] theorem interp_ret (a : α) : (ret a : Prog Op Res α).interp f = ret a := rfl

@[simp] theorem interp_call (o : Op) (k : Res o → Prog Op Res α) :
    (call o k).interp f = f o >>= fun r => (k r).interp f := rfl

@[simp] theorem interp_op (o : Op) : (op o : Prog Op Res (Res o)).interp f = f o :=
  bind_ret (f o)

@[simp] theorem interp_bind (p : Prog Op Res α) (g : α → Prog Op Res β) :
    (p >>= g).interp f = p.interp f >>= fun a => (g a).interp f := by
  induction p with
  | ret a => rfl
  | call o k ih => simp only [call_bind, interp_call, ih, bind_assoc]

/-- Only the operations that the program can come to count. -/
theorem All.interp_congr {g : (o : Op) → Prog Op' Res' (Res o)} {p : Prog Op Res α} (hp : p.All P)
    (h : ∀ o, P o → f o = g o) : p.interp f = p.interp g := by
  induction p with
  | ret a => rfl
  | call o k ih =>
    rw [interp_call, interp_call, h o hp.1]
    exact congrArg (g o >>= ·) (funext fun r => ih r (hp.2 r))

theorem All.interp {Q : Op' → Prop} {p : Prog Op Res α} (hp : p.All P)
    (hf : ∀ o, P o → (f o).All Q) : (p.interp f).All Q := by
  induction p with
  | ret a => trivial
  | call o k ih => exact (hf o hp.1).bind fun r => ih r (hp.2 r)

end Interp

/-! ## Programs that run other programs and keep a state -/

section InterpState

variable {Op' : Type} {Res' : Op' → Type} {σ : Type}

/-- Performs every operation by a program over other operations, which also has a state. -/
def interpState (f : (o : Op) → σ → Prog Op' Res' (Res o × σ)) :
    Prog Op Res α → σ → Prog Op' Res' (α × σ)
  | .ret a, s => .ret (a, s)
  | .call o k, s => f o s >>= fun r => (k r.1).interpState f r.2

theorem interpState_bind (f : (o : Op) → σ → Prog Op' Res' (Res o × σ)) (p : Prog Op Res α)
    (g : α → Prog Op Res β) (s : σ) :
    (p >>= g).interpState f s = p.interpState f s >>= fun r => (g r.1).interpState f r.2 := by
  induction p generalizing s with
  | ret a => rfl
  | call o k ih => simp only [call_bind, interpState, ih, bind_assoc]

/-- Operations that are carried out as they are leave the state alone. -/
theorem All.interpState {f : (o : Op) → σ → Prog Op Res (Res o × σ)}
    (hf : ∀ o, P o → ∀ s, f o s = call o fun r => .ret (r, s)) {p : Prog Op Res α} (hp : p.All P)
    (s : σ) : p.interpState f s = p >>= fun a => .ret (a, s) := by
  induction p with
  | ret a => rfl
  | call o k ih =>
    rw [Prog.interpState, hf o hp.1]
    exact congrArg (call o) (funext fun r => ih r (hp.2 r))

end InterpState

/-! ## Programs as functions of a state -/

/-- What a program comes to when its operations are functions of a state. -/
def eval {State : Type} (handle : (o : Op) → State → Res o × State) :
    Prog Op Res α → State → α × State
  | .ret a, s => (a, s)
  | .call o k, s => (k (handle o s).1).eval handle (handle o s).2

end Prog

end Conc
