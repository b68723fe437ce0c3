import SchemaPlan.Time.Instant

/-!
# Clocks

A clock counts the seconds since the beginning of 1970, leap seconds left out.
-/

set_option autoImplicit false

namespace SchemaPlan.Time

/-- The first day that clocks count. -/
def Date.epoch : Date :=
  .firstOf 1970 1 january_valid

/-- The instant that a clock shows. -/
def Instant.ofClock (seconds : Nat) (nanosecond : Fin 1000000000) : Instant :=
  let ofDay := seconds % 86400
  ⟨Nat.repeat Date.next (seconds / 86400) .epoch, ⟨ofDay / 60, by omega⟩,
    ⟨ofDay % 60, by omega⟩, nanosecond⟩

end SchemaPlan.Time
