/-
  Chip8.Timers

  The delay timer and the sound timer. Both count down to zero, once per tick;
  the host ticks them sixty times a second, whatever the program does. The sound
  is on while its timer is above zero.
-/

namespace Chip8

/-- The two timers of a machine. -/
structure Timers where
  delay : UInt8
  sound : UInt8
  deriving DecidableEq

namespace Timers

/-- Ticks in a second. -/
def rate : Nat := 60

/-- Both timers at zero. -/
def initial : Timers := ⟨0, 0⟩

/-- One less, but not below zero. -/
def countDown (timer : UInt8) : UInt8 :=
  if timer = 0 then 0 else timer - 1

/-- Both timers, one tick later. -/
def tick (t : Timers) : Timers :=
  ⟨countDown t.delay, countDown t.sound⟩

/-- Whether the sound is on. -/
def isSounding (t : Timers) : Bool :=
  t.sound > 0

theorem toNat_countDown (timer : UInt8) : (countDown timer).toNat = timer.toNat - 1 := by
  unfold countDown
  split
  · next h => simp [h]
  · next h =>
    have : timer.toNat ≠ 0 := fun h0 => h (UInt8.toNat_inj.mp h0)
    rw [UInt8.toNat_sub_of_le _ _ (by rw [UInt8.le_iff_toNat_le]; simp; omega)]
    rfl

end Timers

end Chip8
