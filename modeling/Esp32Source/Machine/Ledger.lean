import Mathlib.Data.List.Perm.Basic

/-!
# A ledger of acquired and released resources

Each acquisition yields a new instance of its kind.  The ledger records what
was acquired, what is held, and every release, also one of an instance that is
no longer held.

`Owes ledger owed` says that exactly the instances `owed` are still to be
released: they are the ones held, and every other instance was released once.
An acquisition adds to the debt, and the release of an owed instance takes it
away.  A ledger without debt is settled.
-/

namespace Esp32Source.Machine

universe u

variable {Kind : Type u}

/-- One acquired resource. -/
structure Instance (Kind : Type u) where
  kind : Kind
  serial : Nat
  deriving DecidableEq, Repr

structure Ledger (Kind : Type u) where
  acquired : List (Instance Kind)
  held : List (Instance Kind)
  released : List (Instance Kind)
  deriving DecidableEq, Repr

namespace Ledger

def empty : Ledger Kind where
  acquired := []
  held := []
  released := []

/-- Acquire a new instance of the kind. -/
def acquire (ledger : Ledger Kind) (kind : Kind) :
    Ledger Kind × Instance Kind :=
  let fresh : Instance Kind := ⟨kind, ledger.acquired.length⟩
  ({ ledger with
      acquired := fresh :: ledger.acquired,
      held := fresh :: ledger.held },
    fresh)

/-- Release an instance, whether or not it is held. -/
def release [DecidableEq Kind] (ledger : Ledger Kind)
    (chosen : Instance Kind) : Ledger Kind :=
  { ledger with
    held := ledger.held.erase chosen,
    released := chosen :: ledger.released }

/-- Exactly these instances are still to be released. -/
structure Owes (ledger : Ledger Kind) (owed : List (Instance Kind)) :
    Prop where
  held : ledger.held.Perm owed
  rest : ledger.acquired.Perm (owed ++ ledger.released)

/-- Nothing is held, and everything acquired was released exactly once. -/
def Settled (ledger : Ledger Kind) : Prop :=
  ledger.Owes []

theorem settled_empty : (empty : Ledger Kind).Settled :=
  ⟨List.Perm.refl _, List.Perm.refl _⟩

theorem Owes.acquire {ledger : Ledger Kind} {owed : List (Instance Kind)}
    (owes : ledger.Owes owed) (kind : Kind) :
    (ledger.acquire kind).1.Owes ((ledger.acquire kind).2 :: owed) where
  held := owes.held.cons _
  rest := owes.rest.cons _

/-- Releasing an owed instance takes it off the debt. -/
theorem Owes.release [DecidableEq Kind] {ledger : Ledger Kind}
    {chosen : Instance Kind} {owed : List (Instance Kind)}
    (owes : ledger.Owes (chosen :: owed)) :
    (ledger.release chosen).Owes owed where
  held := by
    have erased := owes.held.erase chosen
    rw [List.erase_cons_head] at erased
    exact erased
  rest := by
    have moved : (chosen :: owed ++ ledger.released).Perm
        (owed ++ chosen :: ledger.released) :=
      List.perm_middle.symm
    exact owes.rest.trans moved

/-- A debt is not settled. -/
theorem Owes.not_settled {ledger : Ledger Kind} {chosen : Instance Kind}
    {owed : List (Instance Kind)} (owes : ledger.Owes (chosen :: owed)) :
    ¬ ledger.Settled := by
  intro settled
  have sameLength := (owes.held.symm.trans settled.held).length_eq
  simp at sameLength

/-- In a settled ledger there are as many releases as acquisitions. -/
theorem Settled.length_eq {ledger : Ledger Kind}
    (settled : ledger.Settled) :
    ledger.acquired.length = ledger.released.length := by
  have sameLength := settled.rest.length_eq
  rwa [List.nil_append] at sameLength

theorem Owes.length_eq {ledger : Ledger Kind}
    {owed : List (Instance Kind)} (owes : ledger.Owes owed) :
    ledger.acquired.length = owed.length + ledger.released.length := by
  have sameLength := owes.rest.length_eq
  rwa [List.length_append] at sameLength

end Ledger

end Esp32Source.Machine
