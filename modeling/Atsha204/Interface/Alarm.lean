import Atsha204.Model.LayerNi2c

/-!
# The alarm of an open handle

`atsha_open_ni2c_dev` sets an alarm of `KILL_UNRELEASED_LOCK_AFTER` seconds with the default
action, so a process that has not closed its handle by then is ended, whatever it is doing. How
long a run takes is not in its hands, but it takes at least as long as it waits for the device.
`waitsUntilAlarm` is how often that can be. `InTime` leaves half of the time until the alarm to
everything that is no waiting: the transfers on the bus, the system, the program itself.
-/

set_option autoImplicit false

namespace Atsha204.Interface

open Atsha204.Model

variable {σ : Type}

/-- The alarm goes off behind as many waits.
SOURCE: api.c:125-129, atsha204consts.h:30, configuration.h:27-28 -/
def waitsUntilAlarm : ℕ := killUnreleasedLockAfter * 1000000 / atsha204I2cCmdTout

/-- The state is reached before the alarm goes off: the library's waits since the handle was
opened, and what the process `awaited` besides (its input, say, in the same unit), are less than
half of what the alarm leaves time for. -/
def InTime (awaited : ℕ) (s : St σ) : Prop := 2 * (awaited + s.ni2cWaits) < waitsUntilAlarm

/-- From the one state to the other the library has waited for longer than the alarm leaves time
for: where the alarm was set by the first, the process does not live to see the second. -/
def OutlivesAlarm (s s' : St σ) : Prop := s.ni2cWaits + waitsUntilAlarm ≤ s'.ni2cWaits

end Atsha204.Interface
