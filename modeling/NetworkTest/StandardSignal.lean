import Mathlib.Data.Bool.Basic

/-!
A standard signal: at most one instance is pending, so raising it again before
it is delivered leaves no trace. The counters say how often it was raised,
delivered, and merged into an instance that was already pending; `balance`
makes a count that does not add up impossible to build.
-/

namespace NetworkTest.StandardSignal

structure Signal where
  pending : Bool
  raised : Nat
  delivered : Nat
  merged : Nat
  balance : raised = delivered + merged + pending.toNat

def quiet : Signal where
  pending := false
  raised := 0
  delivered := 0
  merged := 0
  balance := rfl

def raise (signal : Signal) : Signal where
  pending := true
  raised := signal.raised + 1
  delivered := signal.delivered
  merged := signal.merged + signal.pending.toNat
  balance := by
    have before := signal.balance
    simp only [Bool.toNat_true]
    omega

def deliver (signal : Signal) (waiting : signal.pending = true) : Signal where
  pending := false
  raised := signal.raised
  delivered := signal.delivered + 1
  merged := signal.merged
  balance := by
    have before := signal.balance
    rw [waiting] at before
    simp only [Bool.toNat_true, Bool.toNat_false] at before ⊢
    omega

@[simp] theorem raise_raised (signal : Signal) :
    (raise signal).raised = signal.raised + 1 := rfl

@[simp] theorem raise_delivered (signal : Signal) :
    (raise signal).delivered = signal.delivered := rfl

@[simp] theorem raise_merged (signal : Signal) :
    (raise signal).merged = signal.merged + signal.pending.toNat := rfl

@[simp] theorem deliver_delivered (signal : Signal) (waiting : signal.pending = true) :
    (deliver signal waiting).delivered = signal.delivered + 1 := rfl

@[simp] theorem deliver_merged (signal : Signal) (waiting : signal.pending = true) :
    (deliver signal waiting).merged = signal.merged := rfl

theorem delivered_le_raised (signal : Signal) : signal.delivered ≤ signal.raised := by
  have balance := signal.balance
  omega

/-- With nothing pending, every instance raised was delivered exactly when
none was merged into another. -/
theorem caught_up_iff (signal : Signal) (nothing : signal.pending = false) :
    signal.delivered = signal.raised ↔ signal.merged = 0 := by
  have balance := signal.balance
  rw [nothing, Bool.toNat_false] at balance
  omega

end NetworkTest.StandardSignal
