import Mathlib

/-!
Shares that stay close. Members are served one at a time, each service adds a
bounded amount to the total of one member, and the member served was not ahead of
any other by more than a fixed spread. Then no two totals are ever further apart
than the spread and one amount.
-/

namespace TlsVpn.FairShare

universe u

variable {Member : Type u}

def Within (members : List Member) (bound : Int) (total : Member → Int) : Prop :=
  ∀ first ∈ members, ∀ second ∈ members, total first - total second ≤ bound

theorem Within.start (members : List Member) {bound : Int} (nonneg : 0 ≤ bound) (start : Int) :
    Within members bound fun _ => start := by
  intro _ _ _ _
  dsimp only
  omega

variable [DecidableEq Member]

structure Served (members : List Member) (spread most : Int) (before after : Member → Int)
    (chosen : Member) (amount : Int) : Prop where
  nonneg : 0 ≤ amount
  limited : amount ≤ most
  behind : ∀ other ∈ members, before chosen - before other ≤ spread
  after_eq : after = Function.update before chosen (before chosen + amount)

variable {members : List Member} {spread most : Int} {before after : Member → Int}
  {chosen : Member} {amount : Int}

theorem Within.served (within : Within members (spread + most) before)
    (served : Served members spread most before after chosen amount) :
    Within members (spread + most) after := by
  intro first firstIn second secondIn
  have nonneg := served.nonneg
  have limited := served.limited
  have earlier := within first firstIn second secondIn
  rw [served.after_eq]
  by_cases firstChosen : first = chosen <;> by_cases secondChosen : second = chosen
  · subst firstChosen secondChosen
    omega
  · -- only the member that was behind gains on the others
    subst firstChosen
    have behind := served.behind second secondIn
    rw [Function.update_self, Function.update_of_ne secondChosen]
    omega
  · subst secondChosen
    rw [Function.update_self, Function.update_of_ne firstChosen]
    omega
  · rw [Function.update_of_ne firstChosen, Function.update_of_ne secondChosen]
    exact earlier

end TlsVpn.FairShare
