import Mathlib
import RustyDB.Lib.LineFile
import RustyDB.Lib.LittleEndian
import RustyDB.Sql.Types

/-!
# The binary protocol

What `src/wire/protocol.rs` shares between parameters and result rows.

* `mysqlTypeTiny`, …, `datatypeToMysql` — the type codes.
* `encodeLenencInt`, `readLenencInt` — length-encoded integers;
  `readLenencInt_encode` reads back what was written.
* `encodeLenencStr` — length-encoded strings.
-/

namespace RustyDB
namespace Wire

open LineFile LittleEndian Sql

/-! ## Type codes -/

/-- `MYSQL_TYPE_TINY`. -/
def mysqlTypeTiny : UInt8 := 0x01
/-- `MYSQL_TYPE_SHORT`. -/
def mysqlTypeShort : UInt8 := 0x02
/-- `MYSQL_TYPE_LONG`. -/
def mysqlTypeLong : UInt8 := 0x03
/-- `MYSQL_TYPE_FLOAT`. -/
def mysqlTypeFloat : UInt8 := 0x04
/-- `MYSQL_TYPE_DOUBLE`. -/
def mysqlTypeDouble : UInt8 := 0x05
/-- `MYSQL_TYPE_NULL`. -/
def mysqlTypeNull : UInt8 := 0x06
/-- `MYSQL_TYPE_LONGLONG`. -/
def mysqlTypeLonglong : UInt8 := 0x08
/-- `MYSQL_TYPE_VAR_STRING`. -/
def mysqlTypeVarString : UInt8 := 0xfd

/-- `datatype_to_mysql`. -/
def datatypeToMysql : DataType → UInt8
  | .integer => mysqlTypeLonglong
  | .float => mysqlTypeDouble
  | .text => mysqlTypeVarString
  | .boolean => mysqlTypeTiny
  | .null => mysqlTypeNull

/-! ## Length-encoded integers and strings -/

/-- `encode_lenenc_int`, of an unsigned integer of 64 bits. -/
def encodeLenencInt (value : Nat) : Bytes :=
  if value < 251 then [UInt8.ofNat value]
  else if value < 65536 then 0xfc :: toBytes 2 value
  else if value < 16777216 then 0xfd :: toBytes 3 value
  else 0xfe :: toBytes 8 value

/-- `read_lenenc_int` on the bytes that are left to read. -/
def readLenencInt : Bytes → Option (Nat × Bytes)
  | [] => none
  | first :: rest =>
    if first = 0xfc then (takeBytes 2 rest).map fun taken => (ofBytes taken.1, taken.2)
    else if first = 0xfd then (takeBytes 3 rest).map fun taken => (ofBytes taken.1, taken.2)
    else if first = 0xfe then (takeBytes 8 rest).map fun taken => (ofBytes taken.1, taken.2)
    else some (first.toNat, rest)

/-- **A length-encoded integer** is read back. -/
theorem readLenencInt_encode {value : Nat} (h : value < 2 ^ 64) (rest : Bytes) :
    readLenencInt (encodeLenencInt value ++ rest) = some (value, rest) := by
  have hread : ∀ width, value < 256 ^ width →
      (takeBytes width (toBytes width value ++ rest)).map
        (fun taken => (ofBytes taken.1, taken.2)) =
        some (value, rest) := by
    intro width hwidth
    rw [takeBytes_append (length_toBytes width value), Option.map_some, ofBytes_toBytes hwidth]
  unfold encodeLenencInt
  split
  · rename_i hsmall
    have hbyte : (UInt8.ofNat value).toNat = value := by
      rw [UInt8.toNat_ofNat']
      omega
    have hne : ∀ b : UInt8, 251 ≤ b.toNat → UInt8.ofNat value ≠ b := by
      rintro b hb rfl
      omega
    rw [List.singleton_append, readLenencInt, if_neg (hne _ (by decide)),
      if_neg (hne _ (by decide)),
      if_neg (hne _ (by decide)), hbyte]
  · split
    · exact hread 2 (by omega)
    · split
      · exact hread 3 (by omega)
      · exact hread 8 (by omega)

/-- `encode_lenenc_str`. -/
def encodeLenencStr (s : String) : Bytes := encodeLenencInt (utf8 s).length ++ utf8 s

end Wire
end RustyDB
