import Mathlib
import RustyDB.Wire.Connection
import RustyDB.Wire.Handshake

/-!
# Logins

The greeting and the authentication of the wire protocol, and a client that knows a user name
and a password.  SHA-1 comes from another crate, and is a parameter here.

* `generateScramble`, `buildHandshakeV10` — what the server sends first.
* `verifyMysqlNativePassword`, `authenticate`, `loginReply` — what it makes of the response.
* `readGreeting`, `clientToken` — the other end.
* `readGreeting_build` — **the client finds the scramble in the greeting**, which has no zero
  bytes.
* `login_exact` — **a login succeeds exactly with the credentials of the configuration**, unless
  two passwords have the same token.
-/

namespace RustyDB
namespace Wire

open LineFile LittleEndian

/-! ## The server -/

/-- The user name and the password of `ServerConfig`. -/
structure Credentials where
  username : Option String
  password : Option String

/-- The capabilities that the server advertises. -/
def serverCapabilities : UInt32 :=
  0x00000001 ||| 0x00000002 ||| 0x00000004 ||| clientConnectWithDb ||| 0x00000200 ||| 0x00002000 |||
    clientSecureConnection ||| 0x00020000 ||| clientPluginAuth

/-- `CHARSET_UTF8MB4`. -/
def charsetUtf8mb4 : UInt8 := 45

section Server

variable (sha1 : Bytes → Bytes)

/-- `generate_scramble`, at a time and for a process.  No byte of it is zero. -/
def generateScramble (connId : UInt32) (nanos : Nat) (processId : UInt32) : Bytes :=
  (sha1 (toBytes 4 connId.toNat ++ toBytes 16 nanos ++ toBytes 4 processId.toNat)).map
    fun b => if b = 0 then 1 else b

/-- `verify_mysql_native_password`. -/
def verifyMysqlNativePassword (password : String) (scramble clientAuth : Bytes) : Bool :=
  if password.isEmpty && clientAuth.isEmpty then true
  else if clientAuth.length ≠ 20 then false
  else
    let stage1 := sha1 (utf8 password)
    let stage2 := sha1 stage1
    let scrambleHash := sha1 (scramble ++ stage2)
    List.zipWith (· ^^^ ·) stage1 scrambleHash == clientAuth

/-- What stands between the two parts of the scramble: a filler, the lower half of the
capabilities, the character set, the status, the upper half, the length of the scramble with a
zero byte, and ten reserved bytes. -/
def greetingFields : Bytes :=
  (0 : UInt8) :: (toBytes 2 (serverCapabilities &&& 0xffff).toNat ++ (charsetUtf8mb4 ::
    (toBytes 2 serverStatusAutocommit.toNat ++
      (toBytes 2 ((serverCapabilities >>> 16) &&& 0xffff).toNat ++
        ((21 : UInt8) :: List.replicate 10 0)))))

/-- `build_handshake_v10`. -/
def buildHandshakeV10 (connId : UInt32) (scramble : Bytes) : Bytes :=
  10 :: (encodeNullTerminated serverVersion ++ (toBytes 4 connId.toNat ++ (scramble.take 8 ++
    (greetingFields ++ ((scramble.drop 8).take 12 ++ 0 ::
      encodeNullTerminated "mysql_native_password")))))

/-- The authentication of `handle_connection`, required (`ServerConfig::auth_required`) when the
user name and the password are both set. -/
def authenticate (config : Credentials) (scramble : Bytes) (handshake : ClientHandshake) : Bool :=
  match config.username, config.password with
  | some user, some password =>
    handshake.username == user &&
      verifyMysqlNativePassword sha1 password scramble handshake.authResponse
  | _, _ => true

/-- What is sent for a handshake response: only behind an OK the connection goes on. -/
def loginReply (config : Credentials) (peer : String) (scramble clientData : Bytes) : Sent :=
  match parseClientHandshake clientData with
  | .error e => .err 1045 "28000" ("Bad handshake: " ++ e)
  | .ok handshake =>
    if authenticate sha1 config scramble handshake then .ok
    else .err 1045 "28000" s!"Access denied for user '{handshake.username}'@'{peer}'"

end Server

/-! ## The client -/

/-- What a client reads off a greeting. -/
structure Greeting where
  version : String
  connectionId : Nat
  scramble : Bytes
  capabilities : Nat
  authPlugin : String
  deriving DecidableEq

/-- A greeting: the second part of the scramble ends with a zero byte. -/
def readGreeting : Bytes → Option Greeting
  | [] => none
  | protocol :: rest =>
    if protocol = 10 then do
      let version := readNullTerminated rest
      let id ← takeBytes 4 version.2
      let first ← takeBytes 8 id.2
      let fixed ← takeBytes 19 first.2
      let second := fixed.2.takeWhile (· != 0)
      let plugin := readNullTerminated ((fixed.2.dropWhile (· != 0)).drop 1)
      pure
        { version := version.1
          connectionId := ofBytes id.1
          scramble := first.1 ++ second
          capabilities :=
            ofBytes ((fixed.1.drop 1).take 2) + 65536 * ofBytes ((fixed.1.drop 6).take 2)
          authPlugin := plugin.1 }
    else none

section Client

variable (sha1 : Bytes → Bytes)

/-- `SHA1(password) XOR SHA1(scramble + SHA1(SHA1(password)))`. -/
def nativeToken (password : String) (scramble : Bytes) : Bytes :=
  List.zipWith (· ^^^ ·) (sha1 (utf8 password))
    (sha1 (scramble ++ sha1 (sha1 (utf8 password))))

/-- An empty password is sent as it is. -/
def clientToken (password : String) (scramble : Bytes) : Bytes :=
  if password = "" then [] else nativeToken sha1 password scramble

/-- The credentials that a configuration admits: two passwords cannot be told apart when both
are hashed to one token. -/
def Admits (config : Credentials) (scramble : Bytes) (user password : String) : Prop :=
  ∀ expectedUser ∈ config.username, ∀ expectedPassword ∈ config.password,
    user = expectedUser ∧ if password = "" then expectedPassword = ""
      else nativeToken sha1 password scramble = nativeToken sha1 expectedPassword scramble

instance (config : Credentials) (scramble : Bytes) (user password : String) :
    Decidable (Admits sha1 config scramble user password) := by
  unfold Admits
  infer_instance

end Client

/-! ## The greeting -/

section Greetings

variable {sha1 : Bytes → Bytes}

/-- **A scramble** has 20 bytes, and none of them is zero. -/
theorem generateScramble_spec (hsha : ∀ bytes, (sha1 bytes).length = 20) (connId : UInt32)
    (nanos : Nat) (processId : UInt32) :
    (generateScramble sha1 connId nanos processId).length = 20 ∧
      0 ∉ generateScramble sha1 connId nanos processId := by
  refine ⟨?_, ?_⟩
  · rw [generateScramble, List.length_map, hsha]
  · intro hzero
    obtain ⟨b, -, hb⟩ := List.mem_map.mp hzero
    split at hb
    · cases hb
    · rename_i hne
      exact hne hb

/-- **The greeting** is read back by a client. -/
theorem readGreeting_build {scramble : Bytes} (hlength : scramble.length = 20)
    (hzero : 0 ∉ scramble) (connId : UInt32) :
    readGreeting (buildHandshakeV10 connId scramble) =
      some ⟨serverVersion, connId.toNat, scramble, serverCapabilities.toNat,
        "mysql_native_password"⟩ := by
  have hversion : 0 ∉ utf8 serverVersion := by decide +kernel
  have hplugin : 0 ∉ utf8 "mysql_native_password" := by decide +kernel
  have hid : ofBytes (toBytes 4 connId.toNat) = connId.toNat := ofBytes_toBytes connId.toNat_lt
  have hfirst : (scramble.take 8).length = 8 := by
    rw [List.length_take, hlength]
    rfl
  have hsecond : (scramble.drop 8).take 12 = scramble.drop 8 := by
    rw [List.take_of_length_le]
    rw [List.length_drop, hlength]
  have hfields : greetingFields.length = 19 := by rfl
  have hcapabilities : ofBytes ((greetingFields.drop 1).take 2) +
      65536 * ofBytes ((greetingFields.drop 6).take 2) = serverCapabilities.toNat := by
    decide +kernel
  have hrest : 0 ∉ scramble.drop 8 := fun h => hzero (List.mem_of_mem_drop h)
  obtain ⟨htake, hdrop⟩ := takeWhile_terminated hrest
    (encodeNullTerminated "mysql_native_password")
  have hname := readNullTerminated_encode hplugin []
  rw [List.append_nil] at hname
  rw [buildHandshakeV10, readGreeting, if_pos rfl]
  simp only [readNullTerminated_encode hversion, takeBytes_append (length_toBytes 4 _),
    takeBytes_append hfirst, takeBytes_append hfields, Option.bind_eq_bind, Option.bind_some,
    hsecond, htake, hdrop, hname, hid, hcapabilities, List.take_append_drop]
  rfl

end Greetings

/-! ## The login -/

section Logins

variable {sha1 : Bytes → Bytes} {scramble : Bytes}

theorem length_nativeToken (hsha : ∀ bytes, (sha1 bytes).length = 20) (password : String) :
    (nativeToken sha1 password scramble).length = 20 := by
  rw [nativeToken, List.length_zipWith, hsha, hsha]
  rfl

/-- **The token of a client** is verified when its password is the expected one, or has the same
token. -/
theorem verify_clientToken (hsha : ∀ bytes, (sha1 bytes).length = 20)
    (password expected : String) :
    verifyMysqlNativePassword sha1 expected scramble (clientToken sha1 password scramble) = true ↔
      if password = "" then expected = ""
      else nativeToken sha1 password scramble = nativeToken sha1 expected scramble := by
  have hlength : (nativeToken sha1 password scramble).length = 20 :=
    length_nativeToken hsha password
  by_cases hempty : password = ""
  · rw [clientToken, if_pos hempty, if_pos hempty, verifyMysqlNativePassword]
    by_cases hexpected : expected = ""
    · simp [hexpected]
    · simp [hexpected]
  · have hne : (nativeToken sha1 password scramble).isEmpty = false := by
      rw [List.isEmpty_eq_false_iff]
      rintro hnil
      rw [hnil] at hlength
      cases hlength
    rw [clientToken, if_neg hempty, if_neg hempty, verifyMysqlNativePassword, hne, Bool.and_false,
      if_neg Bool.false_ne_true, if_neg (not_not.mpr hlength), beq_iff_eq]
    exact eq_comm

theorem authenticate_iff (hsha : ∀ bytes, (sha1 bytes).length = 20) {config : Credentials}
    {handshake : ClientHandshake} {user password : String} (huser : handshake.username = user)
    (hauth : handshake.authResponse = clientToken sha1 password scramble) :
    authenticate sha1 config scramble handshake = true ↔
      Admits sha1 config scramble user password := by
  obtain ⟨username, expected⟩ := config
  cases username with
  | none => simp [authenticate, Admits]
  | some expectedUser =>
    cases expected with
    | none => simp [authenticate, Admits]
    | some expectedPassword =>
      rw [authenticate, huser, hauth, Bool.and_eq_true, beq_iff_eq, verify_clientToken hsha]
      simp [Admits]

/-- The user name and the auth response of a packet. -/
theorem parseClientHandshake_encode (r : HandshakeResponse) (h : r.Conforms) :
    ∃ handshake, parseClientHandshake r.encode = .ok handshake ∧
      handshake.username = r.username ∧ handshake.authResponse = r.authResponse := by
  have hbehind : r.encode.drop 32 = encodeNullTerminated r.username ++
      (r.layout.encode r.authResponse ++ (r.database.elim [] encodeNullTerminated ++
        r.authPlugin.elim [] encodeNullTerminated)) :=
    List.drop_left' (by simp)
  have hcapabilities : UInt32.ofNat (ofBytes (r.encode.take 4)) = r.capabilities := by
    have htake : r.encode.take 4 = toBytes 4 r.capabilities.toNat := by
      rw [HandshakeResponse.encode, List.append_assoc]
      exact List.take_left' (length_toBytes 4 _)
    rw [htake, ofBytes_toBytes r.capabilities.toNat_lt, UInt32.ofNat_toNat]
  have hlong : ¬ r.encode.length < 32 := by
    intro hshort
    rw [List.drop_eq_nil_of_le (by omega), encodeNullTerminated] at hbehind
    simp at hbehind
  rw [parseClientHandshake, if_neg hlong, hbehind, hcapabilities]
  simp only [readNullTerminated_encode h.username, readAuthResponse_encode h.auth, Result.ok_bind]
  exact ⟨_, rfl, rfl, rfl⟩

end Logins

/-- **Logins are exact.**  For every configuration, connection, time and process: a client reads
the scramble of the server off the greeting, and when it answers with a user name and the token
of a password, in any layout that can carry them, it is sent an OK exactly if the configuration
does not ask for credentials, or the user name is the expected one and so is the password, up to
passwords with the same token; an empty password counts as empty only.  Anybody else is told
that access is denied. -/
theorem login_exact (sha1 : Bytes → Bytes) (hsha : ∀ bytes, (sha1 bytes).length = 20)
    (config : Credentials) (connId processId : UInt32) (nanos : Nat) (peer password : String)
    (r : HandshakeResponse) :
    ∃ greeting, readGreeting (buildHandshakeV10 connId
        (generateScramble sha1 connId nanos processId)) = some greeting ∧
      greeting.scramble = generateScramble sha1 connId nanos processId ∧
      ∀ token, token = clientToken sha1 password greeting.scramble →
        { r with authResponse := token }.Conforms →
          loginReply sha1 config peer (generateScramble sha1 connId nanos processId)
              { r with authResponse := token }.encode =
            if Admits sha1 config greeting.scramble r.username password then .ok
            else .err 1045 "28000" s!"Access denied for user '{r.username}'@'{peer}'" := by
  obtain ⟨hlength, hzero⟩ := generateScramble_spec hsha connId nanos processId
  refine ⟨_, readGreeting_build hlength hzero connId, rfl, ?_⟩
  rintro token rfl hconforms
  obtain ⟨handshake, hparse, huser, hauth⟩ := parseClientHandshake_encode _ hconforms
  have hiff : authenticate sha1 config _ handshake = true ↔ Admits sha1 config _ _ _ :=
    authenticate_iff hsha huser hauth
  rw [loginReply, hparse]
  by_cases hadmits : Admits sha1 config (generateScramble sha1 connId nanos processId) r.username
      password
  · simp only [hiff.mpr hadmits, hadmits, if_true]
  · have hrefused : ¬ authenticate sha1 config (generateScramble sha1 connId nanos processId)
        handshake = true := fun h => hadmits (hiff.mp h)
    simp only [if_neg hadmits, if_neg hrefused, huser]

/-! ## Two logins -/

/-- The scramble of connection 1 of process 42, at a time. -/
def sampleScramble : Bytes :=
  [245, 167, 32, 112, 228, 169, 153, 57, 50, 208,
    112, 140, 241, 19, 240, 250, 42, 112, 166, 189]

/-- SHA-1 of `secret`. -/
def secretDigest : Bytes :=
  [229, 233, 250, 27, 163, 30, 205, 26, 232, 79,
    117, 202, 170, 71, 79, 58, 102, 63, 5, 244]

/-- SHA-1 of `secretDigest`. -/
def secretStage2 : Bytes :=
  [20, 230, 85, 103, 171, 219, 81, 53, 208, 207,
    217, 167, 11, 48, 50, 193, 121, 164, 158, 231]

/-- SHA-1 of the wrong password. -/
def guessDigest : Bytes :=
  [119, 54, 31, 202, 150, 91, 62, 83, 255, 129,
    165, 212, 133, 37, 202, 138, 219, 138, 155, 135]

/-- SHA-1 of `guessDigest`. -/
def guessStage2 : Bytes :=
  [133, 42, 154, 208, 27, 241, 197, 165, 152, 253,
    134, 248, 118, 44, 47, 209, 26, 155, 75, 20]

/-- What SHA-1 is of the bytes of these logins. -/
def sampleHashes : List (Bytes × Bytes) :=
  [(toBytes 4 1 ++ toBytes 16 1700000000123456789 ++ toBytes 4 42, sampleScramble),
    (utf8 "secret", secretDigest), (secretDigest, secretStage2),
    (sampleScramble ++ secretStage2,
      [152, 162, 24, 53, 53, 185, 112, 208, 145, 58,
        255, 209, 247, 171, 164, 0, 135, 22, 228, 249]),
    (utf8 "guess", guessDigest), (guessDigest, guessStage2),
    (sampleScramble ++ guessStage2,
      [233, 120, 159, 7, 51, 165, 13, 50, 238, 63,
        12, 18, 167, 190, 129, 130, 228, 142, 201, 186])]

/-- SHA-1 of these bytes. -/
def sampleSha1 (bytes : Bytes) : Bytes :=
  ((sampleHashes.find? fun entry => entry.1 == bytes).map Prod.snd).getD (List.replicate 20 0)

theorem length_sampleSha1 (bytes : Bytes) : (sampleSha1 bytes).length = 20 := by
  have hall : ∀ entry ∈ sampleHashes, entry.2.length = 20 := by decide +kernel
  rw [sampleSha1]
  cases hfind : sampleHashes.find? fun entry => entry.1 == bytes with
  | none => rfl
  | some entry => exact hall entry (List.mem_of_find?_eq_some hfind)

/-- What a client sends but for its token. -/
def rootResponse : HandshakeResponse where
  capabilities := 0x00088208
  maxPacketSize := 16777216
  characterSet := 45
  username := "root"
  layout := .oneByte
  authResponse := []
  database := some "shop"
  authPlugin := some "mysql_native_password"

/-- The right password is accepted, and another one is not. -/
theorem sample_logins : ["secret", "guess"].map (fun password =>
      loginReply sampleSha1 ⟨some "root", some "secret"⟩ "127.0.0.1:50000" sampleScramble
        { rootResponse with
          authResponse := clientToken sampleSha1 password sampleScramble }.encode) =
    [.ok, .err 1045 "28000" "Access denied for user 'root'@'127.0.0.1:50000'"] := by
  have hscramble : generateScramble sampleSha1 1 1700000000123456789 42 = sampleScramble := by
    decide +kernel
  have htokens : ∀ password ∈ ["secret", "guess"],
      (clientToken sampleSha1 password sampleScramble).length ≤ 255 ∧
        (Admits sampleSha1 ⟨some "root", some "secret"⟩ sampleScramble "root" password ↔
          password = "secret") := by
    decide +kernel
  have husername : 0 ∉ utf8 "root" := by decide +kernel
  have hdatabase : 0 ∉ utf8 "shop" := by decide +kernel
  have hplugin : 0 ∉ utf8 "mysql_native_password" := by decide +kernel
  have hlayout : hasFlag rootResponse.capabilities clientPluginAuthLenencClientData = false ∧
      hasFlag rootResponse.capabilities clientSecureConnection = true := by decide
  have hnames : hasFlag rootResponse.capabilities clientConnectWithDb = true ∧
      hasFlag rootResponse.capabilities clientPluginAuth = true := by decide
  have hreplies : ∀ password ∈ ["secret", "guess"],
      loginReply sampleSha1 ⟨some "root", some "secret"⟩ "127.0.0.1:50000" sampleScramble
        { rootResponse with
          authResponse := clientToken sampleSha1 password sampleScramble }.encode =
      if password = "secret" then .ok
      else .err 1045 "28000" "Access denied for user 'root'@'127.0.0.1:50000'" := by
    intro password hpassword
    obtain ⟨hlength, hadmits⟩ := htokens password hpassword
    obtain ⟨greeting, -, hgreeting, hlogin⟩ := login_exact sampleSha1 length_sampleSha1
      ⟨some "root", some "secret"⟩ 1 42 1700000000123456789 "127.0.0.1:50000" password rootResponse
    rw [hscramble] at hgreeting hlogin
    rw [hgreeting] at hlogin
    rw [hlogin _ rfl
      { username := husername
        auth := ⟨hlayout.1, hlayout.2, hlength⟩
        database := ⟨hnames.1, by rintro _ ⟨⟩; exact ⟨by decide, hdatabase⟩⟩
        authPlugin := ⟨hnames.2, by rintro _ ⟨⟩; exact ⟨by decide, hplugin⟩⟩ }]
    simp only [rootResponse, hadmits]
    rfl
  rw [List.map_congr_left hreplies]
  rfl

end Wire
end RustyDB
