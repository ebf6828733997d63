import Mathlib.Data.List.Basic

/-!
# Programs over a transactional store

Two free monads describe a service that talks to a relational database.

* `Tx` is the body of one database transaction: a tree of **statements**. A statement reads the
  whole store as the transaction sees it and either fails, or returns a result together with the
  row writes it makes. A failing statement, like `throw`, aborts the transaction.
* `Call` is one request of a client: a sequence of transactions, the events it emits and its
  answer. What a transaction aborts with reaches the continuation as `Except.error`, so a handler
  around it is an ordinary `tryCatch`.

`pick` is an input of the environment that the program does not control: a generated identifier,
a random draw, the row an unordered query happens to return first. `clock` reads the time.
-/

namespace PatronLoyalty.Txn

/-- The body of a transaction over the store `σ`, with writes `ω` and errors `ε`. -/
inductive Tx (σ ω ε : Type) (α : Type) : Type 1
  | pure (a : α)
  | throw (e : ε)
  | pick (k : ℕ → Tx σ ω ε α)
  | clock (k : ℕ → Tx σ ω ε α)
  | stmt {β : Type} (s : σ → Except ε (β × List ω)) (k : β → Tx σ ω ε α)

/-- A client request: transactions, emitted events `ev`, and an answer. -/
inductive Call (σ ω ε ev : Type) (α : Type) : Type 1
  | pure (a : α)
  | throw (e : ε)
  | pick (k : ℕ → Call σ ω ε ev α)
  | emit (v : ev) (k : Call σ ω ε ev α)
  | tx {β : Type} (t : Tx σ ω ε β) (k : Except ε β → Call σ ω ε ev α)

variable {σ ω ε ev α β : Type}

namespace Tx

/-- Sequencing: `f` is grafted onto every leaf that returns. -/
def bind : Tx σ ω ε α → (α → Tx σ ω ε β) → Tx σ ω ε β
  | pure a, f => f a
  | throw e, _ => throw e
  | pick k, f => pick fun n => (k n).bind f
  | clock k, f => clock fun n => (k n).bind f
  | stmt s k, f => stmt s fun b => (k b).bind f

instance : Monad (Tx σ ω ε) where
  pure := Tx.pure
  bind := Tx.bind

/-- `catch (e) { throw f(e) }` around a part of the body. The transaction aborts all the same. -/
def mapError (f : ε → ε) : Tx σ ω ε α → Tx σ ω ε α
  | pure a => pure a
  | throw e => throw (f e)
  | pick k => pick fun n => (k n).mapError f
  | clock k => clock fun n => (k n).mapError f
  | stmt s k => stmt (fun x => (s x).mapError f) fun b => (k b).mapError f

def read (f : σ → β) : Tx σ ω ε β := stmt (fun s => .ok (f s, [])) pure

/-- A read that fails when it finds nothing (`findUniqueOrThrow`). -/
def readOrThrow (e : ε) (f : σ → Option β) : Tx σ ω ε β :=
  stmt (fun s => match f s with | some b => .ok (b, []) | none => .error e) pure

/-- A statement that may fail and may write. -/
def exec (s : σ → Except ε (β × List ω)) : Tx σ ω ε β := stmt s pure

def input : Tx σ ω ε ℕ := pick pure

/-- The time. -/
def now : Tx σ ω ε ℕ := clock pure

def findFirst (rows : σ → List β) : Tx σ ω ε (Option β) :=
  pick fun n => read fun s => (rows s)[n % (rows s).length]?

@[simp] theorem pure_eq (a : α) : (Pure.pure a : Tx σ ω ε α) = Tx.pure a := rfl

@[simp] theorem bind_eq (t : Tx σ ω ε α) (f : α → Tx σ ω ε β) : t >>= f = t.bind f := rfl

@[simp] theorem pure_bind (a : α) (f : α → Tx σ ω ε β) : (pure a : Tx σ ω ε α).bind f = f a := rfl

@[simp] theorem throw_bind (e : ε) (f : α → Tx σ ω ε β) :
    (throw e : Tx σ ω ε α).bind f = throw e := rfl

end Tx

namespace Call

def bind : Call σ ω ε ev α → (α → Call σ ω ε ev β) → Call σ ω ε ev β
  | pure a, f => f a
  | throw e, _ => throw e
  | pick k, f => pick fun n => (k n).bind f
  | emit v k, f => emit v (k.bind f)
  | tx t k, f => tx t fun r => (k r).bind f

/-- `try … catch`: the handler takes over wherever the body throws. -/
def handle : Call σ ω ε ev α → (ε → Call σ ω ε ev α) → Call σ ω ε ev α
  | pure a, _ => pure a
  | throw e, h => h e
  | pick k, h => pick fun n => (k n).handle h
  | emit v k, h => emit v (k.handle h)
  | tx t k, h => tx t fun r => (k r).handle h

instance : Monad (Call σ ω ε ev) where
  pure := Call.pure
  bind := Call.bind

instance : MonadExcept ε (Call σ ω ε ev) where
  throw := Call.throw
  tryCatch := Call.handle

/-- The request that answers `r` right away. -/
def ofExcept : Except ε α → Call σ ω ε ev α
  | .ok a => pure a
  | .error e => throw e

/-- Run a transaction; an abort is thrown. -/
def withTx (t : Tx σ ω ε α) : Call σ ω ε ev α :=
  tx t fun r => match r with | .ok a => pure a | .error e => throw e

/-- An environment input outside any transaction. -/
def input : Call σ ω ε ev ℕ := pick pure

def fire (v : ev) : Call σ ω ε ev Unit := emit v (pure ())

/-- Emit events in order. -/
def fireAll : List ev → Call σ ω ε ev Unit
  | [] => pure ()
  | v :: vs => emit v (fireAll vs)

/-- `for … of`: the body for each element in turn, stopping at the first that throws. -/
def forEach (xs : List β) (f : β → Call σ ω ε ev Unit) : Call σ ω ε ev Unit :=
  match xs with
  | [] => pure ()
  | x :: xs => (f x).bind fun _ => forEach xs f

/-- `for … of` that carries a value. -/
def foldEach (xs : List β) (a : α) (f : α → β → Call σ ω ε ev α) : Call σ ω ε ev α :=
  match xs with
  | [] => pure a
  | x :: xs => (f a x).bind fun a' => foldEach xs a' f

@[simp] theorem pure_eq (a : α) : (Pure.pure a : Call σ ω ε ev α) = Call.pure a := rfl

@[simp] theorem bind_eq (c : Call σ ω ε ev α) (f : α → Call σ ω ε ev β) :
    c >>= f = c.bind f := rfl

theorem bind_assoc {γ : Type} (c : Call σ ω ε ev α) (f : α → Call σ ω ε ev β)
    (g : β → Call σ ω ε ev γ) : (c.bind f).bind g = c.bind fun a => (f a).bind g := by
  induction c with
  | pure a => rfl
  | throw e => rfl
  | pick k ih => exact congrArg Call.pick (funext fun n => ih n)
  | emit v k ih => exact congrArg (Call.emit v) ih
  | tx t k ih => exact congrArg (Call.tx t) (funext fun r => ih r)

@[simp] theorem throw_eq (e : ε) :
    (MonadExcept.throw e : Call σ ω ε ev α) = Call.throw e := rfl

@[simp] theorem tryCatch_eq (c : Call σ ω ε ev α) (h : ε → Call σ ω ε ev α) :
    MonadExcept.tryCatch c h = c.handle h := rfl

end Call

end PatronLoyalty.Txn
