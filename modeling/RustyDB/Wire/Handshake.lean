import Mathlib
import RustyDB.Lib.Result
import RustyDB.Wire.Protocol

/-!
# The handshake response

The model of `parse_client_handshake` of `src/wire/protocol.rs`, which takes a
HandshakeResponse41 apart, and of a client that writes one.

* `fromUtf8Lossy`, `readNullTerminated`, `readAuthResponse`, `readName` — the parts of the
  packet, off the bytes that are left to read.
* `HandshakeResponse`, `HandshakeResponse.encode` — what a client sends, in one of the three
  layouts of the auth response.
* `readNullTerminated_encode`, `readAuthResponse_encode`, `readName_encode` — each part is
  read back, whatever stands behind it.
* `handshake_round_trip` — **a response whose flags match its parts is read back.**
-/

namespace RustyDB
namespace Wire

open LineFile LittleEndian

/-! ## Capabilities -/

/-- `CLIENT_CONNECT_WITH_DB`. -/
def clientConnectWithDb : UInt32 := 0x00000008
/-- `CLIENT_SECURE_CONNECTION`. -/
def clientSecureConnection : UInt32 := 0x00008000
/-- `CLIENT_PLUGIN_AUTH`. -/
def clientPluginAuth : UInt32 := 0x00080000
/-- `CLIENT_PLUGIN_AUTH_LENENC_CLIENT_DATA`. -/
def clientPluginAuthLenencClientData : UInt32 := 0x00200000

/-- `capabilities & flag != 0`. -/
def hasFlag (capabilities flag : UInt32) : Bool := capabilities &&& flag != 0

/-! ## Strings of unknown encoding -/

/-- The ranges of the bytes that may follow the first byte of a character, unless no character
starts with it. -/
def followers (first : UInt8) : Option (List (UInt8 × UInt8)) :=
  if first < 0x80 then some []
  else if first < 0xc2 then none
  else if first < 0xe0 then some [(0x80, 0xbf)]
  else if first = 0xe0 then some [(0xa0, 0xbf), (0x80, 0xbf)]
  else if first = 0xed then some [(0x80, 0x9f), (0x80, 0xbf)]
  else if first < 0xf0 then some [(0x80, 0xbf), (0x80, 0xbf)]
  else if first = 0xf0 then some [(0x90, 0xbf), (0x80, 0xbf), (0x80, 0xbf)]
  else if first < 0xf4 then some [(0x80, 0xbf), (0x80, 0xbf), (0x80, 0xbf)]
  else if first = 0xf4 then some [(0x80, 0x8f), (0x80, 0xbf), (0x80, 0xbf)]
  else none

/-- How many bytes are in the ranges, up to the first that is not. -/
def followed : List (UInt8 × UInt8) → Bytes → Nat
  | (low, high) :: ranges, b :: rest =>
    if low ≤ b ∧ b ≤ high then followed ranges rest + 1 else 0
  | _, _ => 0

/-- The characters of some bytes; what starts no character, or one that is broken off, is the
replacement character. -/
def repair : Nat → Bytes → String
  | 0, _ => ""
  | _, [] => ""
  | fuel + 1, first :: rest =>
    match followers first with
    | none => "\uFFFD" ++ repair fuel rest
    | some ranges =>
      let count := followed ranges rest
      (if count = ranges.length then (decode (first :: rest.take count)).getD "" else "\uFFFD") ++
        repair fuel (rest.drop count)

/-- `String::from_utf8_lossy`. -/
def fromUtf8Lossy (bytes : Bytes) : String := (decode bytes).getD (repair bytes.length bytes)

theorem fromUtf8Lossy_utf8 (s : String) : fromUtf8Lossy (utf8 s) = s := by
  rw [fromUtf8Lossy, decode_utf8, Option.getD_some]

/-! ## Parsing -/

/-- `read_null_terminated`: the string, and what is left behind its zero byte. -/
def readNullTerminated (rest : Bytes) : String × Bytes :=
  (fromUtf8Lossy (rest.takeWhile (· != 0)), (rest.dropWhile (· != 0)).drop 1)

/-- The auth response, in the layout that the flags select. -/
def readAuthResponse (capabilities : UInt32) (rest : Bytes) : Except String (Bytes × Bytes) :=
  if hasFlag capabilities clientPluginAuthLenencClientData then
    match readLenencInt rest with
    | none => .error "Invalid length-encoded auth response"
    | some (length, rest) =>
      match takeBytes length rest with
      | none => .error "Auth response length exceeds packet size"
      | some taken => .ok taken
  else if hasFlag capabilities clientSecureConnection then
    match rest with
    | [] => .ok ([], [])
    | length :: rest => .ok (rest.take length.toNat, rest.drop length.toNat)
  else .ok (rest.takeWhile (· != 0), (rest.dropWhile (· != 0)).drop 1)

/-- The database and the auth plugin: a string that is there when its flag is set, the packet
goes on, and it is not empty. -/
def readName (capabilities flag : UInt32) (rest : Bytes) : Option String × Bytes :=
  if hasFlag capabilities flag && !rest.isEmpty then
    let name := readNullTerminated rest
    (if name.1 = "" then none else some name.1, name.2)
  else (none, rest)

/-- What the server reads off a handshake response. -/
structure ClientHandshake where
  capabilities : UInt32
  username : String
  authResponse : Bytes
  database : Option String
  authPlugin : Option String
deriving DecidableEq

/-- `parse_client_handshake`.  The packet size, the character set and the reserved bytes are
skipped. -/
def parseClientHandshake (data : Bytes) : Except String ClientHandshake :=
  if data.length < 32 then .error "Handshake response too short"
  else do
    let capabilities := UInt32.ofNat (ofBytes (data.take 4))
    let username := readNullTerminated (data.drop 32)
    let authResponse ← readAuthResponse capabilities username.2
    let database := readName capabilities clientConnectWithDb authResponse.2
    let authPlugin := readName capabilities clientPluginAuth database.2
    pure ⟨capabilities, username.1, authResponse.1, database.1, authPlugin.1⟩

/-! ## The client -/

/-- The three layouts of the auth response. -/
inductive AuthLayout where
  | lengthEncoded
  | oneByte
  | nullTerminated
deriving DecidableEq

/-- A HandshakeResponse41. -/
structure HandshakeResponse where
  capabilities : UInt32
  maxPacketSize : UInt32
  characterSet : UInt8
  username : String
  layout : AuthLayout
  authResponse : Bytes
  database : Option String
  authPlugin : Option String

/-- The bytes of a string and the zero byte behind them. -/
def encodeNullTerminated (s : String) : Bytes := utf8 s ++ [0]

/-- The bytes of an auth response. -/
def AuthLayout.encode : AuthLayout → Bytes → Bytes
  | .lengthEncoded, auth => encodeLenencInt auth.length ++ auth
  | .oneByte, auth => UInt8.ofNat auth.length :: auth
  | .nullTerminated, auth => auth ++ [0]

/-- The flags select the layout, and the layout can carry the auth response. -/
def AuthLayout.Carries (capabilities : UInt32) : AuthLayout → Bytes → Prop
  | .lengthEncoded, auth =>
    hasFlag capabilities clientPluginAuthLenencClientData = true ∧ auth.length < 2 ^ 64
  | .oneByte, auth =>
    hasFlag capabilities clientPluginAuthLenencClientData = false ∧
      hasFlag capabilities clientSecureConnection = true ∧ auth.length ≤ 255
  | .nullTerminated, auth =>
    hasFlag capabilities clientPluginAuthLenencClientData = false ∧
      hasFlag capabilities clientSecureConnection = false ∧ 0 ∉ auth

/-- A name is announced by its flag, and is not empty. -/
def Announced (capabilities flag : UInt32) (name : Option String) : Prop :=
  hasFlag capabilities flag = name.isSome ∧ ∀ s ∈ name, s ≠ "" ∧ 0 ∉ utf8 s

namespace HandshakeResponse

/-- The packet of a response. -/
def encode (r : HandshakeResponse) : Bytes :=
  toBytes 4 r.capabilities.toNat ++ (toBytes 4 r.maxPacketSize.toNat ++ (r.characterSet ::
    List.replicate 23 0)) ++ (encodeNullTerminated r.username ++
      (r.layout.encode r.authResponse ++
        (r.database.elim [] encodeNullTerminated ++ r.authPlugin.elim [] encodeNullTerminated)))

/-- The flags match the parts, and no string has a zero byte. -/
structure Conforms (r : HandshakeResponse) : Prop where
  username : 0 ∉ utf8 r.username
  auth : r.layout.Carries r.capabilities r.authResponse
  database : Announced r.capabilities clientConnectWithDb r.database
  authPlugin : Announced r.capabilities clientPluginAuth r.authPlugin

/-- What the server should read. -/
def handshake (r : HandshakeResponse) : ClientHandshake :=
  ⟨r.capabilities, r.username, r.authResponse, r.database, r.authPlugin⟩

end HandshakeResponse

/-! ## Reading back -/

section Reading

variable {bytes : Bytes} {capabilities flag : UInt32}

theorem takeWhile_terminated (h : 0 ∉ bytes) (rest : Bytes) :
    (bytes ++ 0 :: rest).takeWhile (· != 0) = bytes ∧
      ((bytes ++ 0 :: rest).dropWhile (· != 0)).drop 1 = rest := by
  have hall : ∀ b ∈ bytes, (b != 0) = true := by
    intro b hb
    rw [bne_iff_ne]
    rintro rfl
    exact h hb
  rw [List.takeWhile_append_of_pos hall, List.dropWhile_append_of_pos hall]
  exact ⟨List.append_nil bytes, rfl⟩

/-- **A string without zero bytes** is read back. -/
theorem readNullTerminated_encode {s : String} (h : 0 ∉ utf8 s) (rest : Bytes) :
    readNullTerminated (encodeNullTerminated s ++ rest) = (s, rest) := by
  obtain ⟨htake, hdrop⟩ := takeWhile_terminated h rest
  rw [encodeNullTerminated, List.append_assoc, List.singleton_append, readNullTerminated, htake,
    hdrop, fromUtf8Lossy_utf8]

/-- **An auth response** is read back in the layout of the flags. -/
theorem readAuthResponse_encode {layout : AuthLayout} (h : layout.Carries capabilities bytes)
    (rest : Bytes) :
    readAuthResponse capabilities (layout.encode bytes ++ rest) = .ok (bytes, rest) := by
  unfold readAuthResponse
  cases layout with
  | lengthEncoded =>
    obtain ⟨hlenenc, hlength⟩ := h
    rw [if_pos hlenenc, AuthLayout.encode, List.append_assoc, readLenencInt_encode hlength]
    simp only [takeBytes_append rfl]
  | oneByte =>
    obtain ⟨hlenenc, hsecure, hlength⟩ := h
    have hbyte : (UInt8.ofNat bytes.length).toNat = bytes.length := by
      rw [UInt8.toNat_ofNat']
      omega
    rw [if_neg (by rw [hlenenc]; exact Bool.false_ne_true), if_pos hsecure, AuthLayout.encode,
      List.cons_append]
    simp only [hbyte, List.take_left, List.drop_left]
  | nullTerminated =>
    obtain ⟨hlenenc, hsecure, hzero⟩ := h
    obtain ⟨htake, hdrop⟩ := takeWhile_terminated hzero rest
    rw [if_neg (by rw [hlenenc]; exact Bool.false_ne_true),
      if_neg (by rw [hsecure]; exact Bool.false_ne_true), AuthLayout.encode, List.append_assoc,
      List.singleton_append, htake, hdrop]

/-- **A name** is read back when its flag announces it. -/
theorem readName_encode {name : Option String} (h : Announced capabilities flag name)
    (rest : Bytes) :
    readName capabilities flag (name.elim [] encodeNullTerminated ++ rest) = (name, rest) := by
  obtain ⟨hflag, hname⟩ := h
  rw [readName, hflag]
  cases name with
  | none => rfl
  | some s =>
    obtain ⟨hne, hzero⟩ := hname s rfl
    have hlong : (encodeNullTerminated s ++ rest).isEmpty = false := by
      rw [encodeNullTerminated, List.append_assoc, List.singleton_append, List.isEmpty_eq_false_iff]
      exact List.append_ne_nil_of_right_ne_nil _ (List.cons_ne_nil 0 rest)
    rw [Option.elim_some, hlong, readNullTerminated_encode hzero]
    exact congrArg (·, rest) (if_neg hne)

end Reading

/-- **Handshake responses decode to what the client encoded**: the capabilities, the user name,
the auth response in each of the three layouts, the database and the auth plugin. -/
theorem handshake_round_trip (r : HandshakeResponse) (h : r.Conforms) :
    parseClientHandshake r.encode = .ok r.handshake := by
  obtain ⟨husername, hauth, hdatabase, hplugin⟩ := h
  have hcapabilities : r.encode.take 4 = toBytes 4 r.capabilities.toNat := by
    rw [HandshakeResponse.encode, List.append_assoc]
    exact List.take_left' (length_toBytes 4 _)
  have hbehind : r.encode.drop 32 = encodeNullTerminated r.username ++
      (r.layout.encode r.authResponse ++ (r.database.elim [] encodeNullTerminated ++
        r.authPlugin.elim [] encodeNullTerminated)) :=
    List.drop_left' (by simp)
  have hlong : ¬ r.encode.length < 32 := by
    intro hshort
    have hnil : r.encode.drop 32 = [] := List.drop_eq_nil_of_le (by omega)
    rw [hbehind, encodeNullTerminated] at hnil
    simp at hnil
  have hvalue : UInt32.ofNat (ofBytes (toBytes 4 r.capabilities.toNat)) = r.capabilities := by
    rw [ofBytes_toBytes r.capabilities.toNat_lt, UInt32.ofNat_toNat]
  have hlast := readName_encode hplugin []
  rw [List.append_nil] at hlast
  rw [parseClientHandshake, if_neg hlong, hcapabilities, hvalue, hbehind]
  simp only [readNullTerminated_encode husername, readAuthResponse_encode hauth, Result.ok_bind,
    readName_encode hdatabase, hlast]
  rfl

/-- A length-encoded response with a database and a plugin. -/
def sampleResponse : HandshakeResponse where
  capabilities := 0x00280208
  maxPacketSize := 16777216
  characterSet := 45
  username := "reader"
  layout := .lengthEncoded
  authResponse := List.replicate 300 7
  database := some "shop"
  authPlugin := some "mysql_native_password"

theorem sample_response_decoded :
    sampleResponse.Conforms ∧
      parseClientHandshake sampleResponse.encode = .ok sampleResponse.handshake := by
  have hconforms : sampleResponse.Conforms :=
    { username := by decide +kernel
      auth := ⟨by decide, by decide +kernel⟩
      database := ⟨by decide, by rintro _ ⟨⟩; decide +kernel⟩
      authPlugin := ⟨by decide, by rintro _ ⟨⟩; decide +kernel⟩ }
  exact ⟨hconforms, handshake_round_trip sampleResponse hconforms⟩

end Wire
end RustyDB
