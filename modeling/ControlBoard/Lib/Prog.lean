/-!
# Programs that call operations

`Prog I α` is the tree of the operations a sequential program may call, over an interface
`I` that gives each operation the type of its answer. The same program can then be read in
three ways: run to its end by a handler that owns the state (`Prog.run`), advanced one
operation at a time between the steps of other programs (`Prog.step`), and advanced from one
blocking operation to the next with the answers coming from outside (`Prog.resume`).
-/

/-- The operations a program may call, and the type of the answer to each. -/
structure Interface where
  Op : Type
  Ans : Op → Type

/-- A program over an interface: it returns, or it calls an operation and goes on with the
answer. -/
inductive Prog (I : Interface) (α : Type) where
  | ret (a : α)
  | call (op : I.Op) (k : I.Ans op → Prog I α)

/-- A handler answers every operation from a state of its own. -/
abbrev Handler (I : Interface) (σ : Type) := (op : I.Op) → σ → I.Ans op × σ

/-- An answer to every operation, with no state. -/
abbrev Answers (I : Interface) := (op : I.Op) → I.Ans op

namespace Prog

variable {I : Interface} {α β σ : Type}

/-- Run `p`, then `f` on what it returns. -/
def bind : Prog I α → (α → Prog I β) → Prog I β
  | .ret a, f => f a
  | .call op k, f => .call op fun r => bind (k r) f

instance : Monad (Prog I) where
  pure := .ret
  bind := Prog.bind

/-- The program that calls one operation and returns its answer. -/
def ask (op : I.Op) : Prog I (I.Ans op) := .call op .ret

@[simp] theorem pure_eq (a : α) : (pure a : Prog I α) = .ret a := rfl
@[simp] theorem ret_bind (a : α) (f : α → Prog I β) : (Prog.ret a : Prog I α) >>= f = f a := rfl
@[simp] theorem call_bind (op : I.Op) (k : I.Ans op → Prog I α) (f : α → Prog I β) :
    Prog.call op k >>= f = .call op fun r => k r >>= f := rfl

-- the answer's type is a metavariable to the index, as interfaces define it by cases
@[simp] theorem ask_bind (op : I.Op) (f : I.Ans op → Prog I β) :
    @Bind.bind (Prog I) _ (no_index (I.Ans op)) β (ask op) f = .call op f := rfl

theorem bind_assoc {γ : Type} (p : Prog I α) (f : α → Prog I β) (g : β → Prog I γ) :
    p >>= f >>= g = p >>= fun a => f a >>= g := by
  induction p with
  | ret a => rfl
  | call op k ih =>
    simp only [call_bind]
    congr 1
    funext r
    exact ih r

theorem bind_pure (p : Prog I α) : p >>= pure = p := by
  induction p with
  | ret a => rfl
  | call op k ih =>
    rw [call_bind]
    congr 1
    funext r
    exact ih r

/-! ## Running under a handler -/

/-- Run a program to its end. -/
def run (h : Handler I σ) : Prog I α → σ → α × σ
  | .ret a, s => (a, s)
  | .call op k, s => run h (k (h op s).1) (h op s).2

@[simp] theorem run_ret (h : Handler I σ) (a : α) (s : σ) : run h (.ret a) s = (a, s) := rfl

@[simp] theorem run_call (h : Handler I σ) (op : I.Op) (k : I.Ans op → Prog I α) (s : σ) :
    run h (.call op k) s = run h (k (h op s).1) (h op s).2 := rfl

/-- A sequence runs its second part from the state and the value of the first. -/
theorem run_bind (h : Handler I σ) (p : Prog I α) (f : α → Prog I β) (s : σ) :
    run h (p >>= f) s = run h (f (run h p s).1) (run h p s).2 := by
  induction p generalizing s with
  | ret a => rfl
  | call op k ih => exact ih _ _

/-- The states in which a run can be cut off: an operation is still before it. -/
def cuts (h : Handler I σ) : Prog I α → σ → List σ
  | .ret _, _ => []
  | .call op k, s => s :: cuts h (k (h op s).1) (h op s).2

@[simp] theorem cuts_ret (h : Handler I σ) (a : α) (s : σ) : cuts h (.ret a) s = [] := rfl

@[simp] theorem cuts_call (h : Handler I σ) (op : I.Op) (k : I.Ans op → Prog I α) (s : σ) :
    cuts h (.call op k) s = s :: cuts h (k (h op s).1) (h op s).2 := rfl

/-! ## One operation at a time -/

/-- The program and the state after the next operation; `none` once it has returned. -/
def step (h : Handler I σ) : Prog I α → σ → Option (Prog I α × σ)
  | .ret _, _ => none
  | .call op k, s => some (k (h op s).1, (h op s).2)

/-- The program has returned. -/
def returned : Prog I α → Bool
  | .ret _ => true
  | .call .. => false

/-- The operation a program is about to call. -/
def next : Prog I α → Option I.Op
  | .ret _ => none
  | .call op _ => some op

/-! ## From one blocking operation to the next -/

variable (blocks : I.Op → Bool) (answer : Answers I)

/-- Answer the operations at the front of a program up to the first one that blocks. -/
def settle : Prog I α → Prog I α
  | .ret a => .ret a
  | .call op k => if blocks op then .call op k else settle (k (answer op))

/-- Answer the operation a program waits in, and run it to the next one that blocks. -/
def resume : Prog I α → Prog I α
  | .ret a => .ret a
  | .call op k => settle blocks answer (k (answer op))

/-! ## What every run ensures -/

/-- Every run whose answers `ok` allows calls operations `ops` and returns `a` with `Q ops a`. -/
def Ensures (ok : (op : I.Op) → I.Ans op → Prop) :
    Prog I α → (List I.Op → α → Prop) → Prop
  | .ret a, Q => Q [] a
  | .call op k, Q => ∀ r, ok op r → Ensures ok (k r) fun ops a => Q (op :: ops) a

variable {ok : (op : I.Op) → I.Ans op → Prop}

theorem Ensures.mono {p : Prog I α} {Q Q' : List I.Op → α → Prop} (h : p.Ensures ok Q)
    (hQ : ∀ ops a, Q ops a → Q' ops a) : p.Ensures ok Q' := by
  induction p generalizing Q Q' with
  | ret a => exact hQ [] a h
  | call op k ih => exact fun r hr => ih r (h r hr) fun ops a => hQ (op :: ops) a

/-- A sequence ensures what its second part ensures behind the operations of the first. -/
theorem Ensures.bind {p : Prog I α} {f : α → Prog I β} {Q : List I.Op → α → Prop}
    {R : List I.Op → β → Prop} (hp : p.Ensures ok Q)
    (hf : ∀ ops a, Q ops a → (f a).Ensures ok fun ops' b => R (ops ++ ops') b) :
    (p >>= f).Ensures ok R := by
  induction p generalizing Q R with
  | ret a => exact hf [] a hp
  | call op k ih => exact fun r hr => ih r (hp r hr) fun ops a => hf (op :: ops) a

/-- Where every operation has an allowed answer, a program has a run. -/
theorem Ensures.exists {p : Prog I α} {Q : List I.Op → α → Prop} (htotal : ∀ op, ∃ r, ok op r)
    (h : p.Ensures ok Q) : ∃ ops a, Q ops a := by
  induction p generalizing Q with
  | ret a => exact ⟨[], a, h⟩
  | call op k ih =>
    obtain ⟨r, hr⟩ := htotal op
    obtain ⟨ops, a, hQ⟩ := ih r (h r hr)
    exact ⟨op :: ops, a, hQ⟩

end Prog
