/-
  CONNECT.

  The size, the flags and the payload are computed from the optional arguments separately.  They
  agree, and the packet says what it was built from, if and only if a will has a topic and a payload
  pointer, a payload without a length has a NUL, and a password comes with a user name
  (`encodesArgs_iff`): of a will without a payload pointer the size and the flags take notice, the
  payload does not, and what is missing stays 0.
-/
import EspMqttClient.Packets.Equiv.Grammar

namespace EspMqttClient

namespace Packet

open Grammar

variable {cfg : Config}

namespace ConnectArgs

/-! ### What is said -/

/-- The will message: what the pointer points to, as many bytes as are asked for; a C string if none are
asked for, which is cut off where its length no longer fits. -/
def willMessage (args : ConnectArgs) : List Byte :=
  match args.willPayload with
  | none => []
  | some memory =>
    if args.willPayloadLength = 0 then (CString.ofMemory memory).bytes.take 65535
    else memory.take args.willPayloadLength.toNat

/-- What the packet is to say. -/
def message (args : ConnectArgs) : Message :=
  .connect args.cleanSession args.keepAlive.toNat (args.clientId.getD .empty).bytes
    (args.willTopic.map fun topic => ⟨topic.bytes, args.willMessage, args.willQos, args.willRetain⟩)
    (args.username.map CString.bytes) (args.password.map CString.bytes)

/-- `strlen`, which looks for the length of a payload that is not given, stays inside the payload. -/
def ReadsInside (args : ConnectArgs) : Prop :=
  ∀ memory, args.willPayload = some memory → args.willPayloadLength = 0 →
    (CString.ofMemory memory).length < memory.length

/-- Arguments as they are documented: there is a client id, no string is too long, the will has a quality
of service, and its payload is as long as is said.  What is said to have no length may be a C string or not. -/
structure Valid (args : ConnectArgs) : Prop where
  clientId : (args.clientId.getD .empty).length ≠ 0
  clientId_le : (args.clientId.getD .empty).length ≤ 65535
  willTopic_le : ∀ topic, args.willTopic = some topic → topic.length ≤ 65535
  willQos : args.willQos ≤ 2
  willPayload_le : ∀ memory, args.willPayload = some memory → args.willPayloadLength.toNat ≤ memory.length
  username_le : ∀ username, args.username = some username → username.length ≤ 65535
  password_le : ∀ password, args.password = some password → password.length ≤ 65535

/-- The arguments that a CONNECT can say: a will has a topic of some bytes and a payload pointer, a payload
of no length is a C string, and a password comes with a user name. -/
structure Sayable (args : ConnectArgs) : Prop where
  will : ∀ topic, args.willTopic = some topic → topic.bytes ≠ [] ∧ args.willPayload.isSome
  terminated : ∀ memory, args.willPayload = some memory → args.willPayloadLength = 0 → 0 ∈ memory
  password : args.password.isSome → args.username.isSome

/-! ### The flags -/

/-- The flags say which fields there are, and are as they must be if a password comes with a user name. -/
theorem flags_spec {args : ConnectArgs} (hqos : args.willQos ≤ 2) :
    (connectFlags args.flags ↔ (args.password.isSome → args.username.isSome)) ∧
      (args.flags &&& 0x04 ≠ 0 ↔ args.willTopic.isSome) ∧ (args.flags &&& 0x80 ≠ 0 ↔ args.username.isSome) ∧
      (args.flags &&& 0x40 ≠ 0 ↔ args.password.isSome) ∧ (args.flags &&& 0x02 ≠ 0 ↔ args.cleanSession) ∧
      (args.willTopic.isSome → (args.flags &&& 0x18) >>> 3 = args.willQos ∧
        (args.flags &&& 0x20 ≠ 0 ↔ args.willRetain)) := by
  rw [flags]
  generalize args.username.isSome = username, args.password.isSome = password, args.willTopic.isSome = will,
    args.cleanSession = clean, args.willRetain = retain
  rcases qos_cases hqos with h | h | h <;> rw [h] <;> revert username password will clean retain <;> decide

/-! ### The will -/

/-- There is a NUL to find. -/
theorem readsInside_iff {args : ConnectArgs} : args.ReadsInside ↔
    ∀ memory, args.willPayload = some memory → args.willPayloadLength = 0 → 0 ∈ memory :=
  forall_congr' fun memory => imp_congr_right fun _ => imp_congr_right fun _ =>
    CString.length_ofMemory_lt_iff memory

/-- As many bytes are copied as are said, and they are the message. -/
theorem take_willLength {args : ConnectArgs} {memory : List Byte} (hmemory : args.willPayload = some memory)
    (hle : args.willPayloadLength.toNat ≤ memory.length) :
    memory.take args.willLength.toNat = args.willMessage ∧ args.willLength.toNat = args.willMessage.length := by
  rw [willLength, willMessage, hmemory]
  dsimp only
  obtain ⟨behind, hbehind⟩ : (CString.ofMemory memory).bytes <+: memory := List.takeWhile_prefix _
  have htake : ∀ n ≤ (CString.ofMemory memory).bytes.length,
      memory.take n = (CString.ofMemory memory).bytes.take n := by
    intro n hn
    rw [← List.take_append_of_le_length hn, hbehind]
  split_ifs with hzero hlong
  · -- a C string that is cut off
    have hlong' : 65535 < (CString.ofMemory memory).bytes.length := hlong
    exact ⟨htake 65535 hlong'.le, (List.length_take_of_le hlong'.le).symm⟩
  · -- a C string
    have hshort : (CString.ofMemory memory).bytes.length ≤ 65535 := Nat.not_lt.mp hlong
    have hlength : (UInt16.ofNat (CString.ofMemory memory).length).toNat =
        (CString.ofMemory memory).bytes.length :=
      UInt16.toNat_ofNat_of_lt (by show (CString.ofMemory memory).bytes.length < 65536; omega)
    rw [hlength, List.take_of_length_le hshort, htake _ (Nat.le_refl _), List.take_length]
    exact ⟨rfl, rfl⟩
  · -- as many bytes as are asked for
    exact ⟨rfl, by rw [List.length_take_of_le hle]⟩

/-! ### What is written -/

/-- The fields up to the client id. -/
def headBytes (args : ConnectArgs) : List Byte :=
  stringBytes PROTOCOL ++ ([0x04] ++ ([args.flags] ++ (bigEndian args.keepAlive ++
    stringBytes (args.clientId.getD .empty))))

/-- The will, which is left out without a payload pointer. -/
def willBytes (args : ConnectArgs) : List Byte :=
  match args.willTopic, args.willPayload with
  | some topic, some memory =>
    stringBytes topic ++ (bigEndian args.willLength ++ memory.take args.willLength.toNat)
  | _, _ => []

/-- The fields behind the will. -/
def credentialBytes (args : ConnectArgs) : List Byte :=
  args.username.elim [] stringBytes ++ args.password.elim [] stringBytes

/-- How many bytes there is room for and nothing to write: a will without a payload pointer is counted. -/
def missing (args : ConnectArgs) : ℕ :=
  match args.willTopic, args.willPayload with
  | some topic, none => 4 + topic.length + args.willLength.toNat
  | _, _ => 0

/-- What is behind the fixed header. -/
def body (args : ConnectArgs) : List Byte :=
  args.headBytes ++ (args.willBytes ++ (args.credentialBytes ++ List.replicate args.missing 0))

theorem length_elim_stringBytes (o : Option CString) :
    (o.elim [] stringBytes).length = o.elim 0 fun s => 2 + s.length := by
  cases o <;> simp

theorem length_body {args : ConnectArgs} (hvalid : args.Valid) :
    args.body.length = 6 + 1 + 1 + 2 + 2 + (args.clientId.getD .empty).length +
      args.willTopic.elim 0 (fun s => 2 + s.length + (2 + args.willLength.toNat)) +
      args.username.elim 0 (fun s => 2 + s.length) + args.password.elim 0 fun s => 2 + s.length := by
  have hwill : args.willBytes.length + args.missing =
      args.willTopic.elim 0 fun s => 2 + s.length + (2 + args.willLength.toNat) := by
    rw [willBytes, missing]
    cases htopic : args.willTopic with
    | none => rfl
    | some topic =>
      cases hmemory : args.willPayload with
      | none =>
        -- nothing is written, but there is room for the topic and the payload
        show 0 + (4 + topic.length + args.willLength.toNat) = 2 + topic.length + (2 + args.willLength.toNat)
        omega
      | some memory =>
        obtain ⟨htake, hlength⟩ := take_willLength hmemory (hvalid.willPayload_le memory hmemory)
        simp only [List.length_append, length_stringBytes, length_bigEndian, htake, ← hlength, Option.elim]
        omega
  have hprotocol : PROTOCOL.length = 4 := rfl
  simp only [body, headBytes, credentialBytes, List.length_append, length_stringBytes, length_bigEndian,
    List.length_singleton, List.length_replicate, length_elim_stringBytes, hprotocol]
  omega

theorem length_body_le {args : ConnectArgs} (hvalid : args.Valid) : args.body.length ≤ 268435455 := by
  have hstring : ∀ {o : Option CString}, (∀ s, o = some s → s.length ≤ 65535) →
      (o.elim 0 fun s => 2 + s.length) ≤ 65537 := by
    intro o ho
    cases o with
    | none => exact Nat.zero_le _
    | some s => have := ho s rfl; show 2 + s.length ≤ 65537; omega
  have hwill : (args.willTopic.elim 0 fun s => 2 + s.length + (2 + args.willLength.toNat)) ≤ 131074 := by
    have hlength := args.willLength.toNat_lt
    cases htopic : args.willTopic with
    | none => exact Nat.zero_le _
    | some topic =>
      have htopic_le := hvalid.willTopic_le topic htopic
      show 2 + topic.length + (2 + args.willLength.toNat) ≤ 131074
      omega
  have husername := hstring hvalid.username_le
  have hpassword := hstring hvalid.password_le
  have hclientId := hvalid.clientId_le
  rw [length_body hvalid]
  omega

theorem connectLength_eq {args : ConnectArgs} (hvalid : args.Valid) :
    connectLength cfg args = args.body.length := by
  have hmod := cfg.le_sizeMod
  have hle := length_body_le hvalid
  rw [length_body hvalid] at hle ⊢
  dsimp only [connectLength, Nat.add_zero]
  exact cfg.wrap_of_lt (by omega)

theorem elim_encodeString {o : Option CString} (h : ∀ s, o = some s → s.length ≤ 65535) :
    o.elim [] encodeString = o.elim [] stringBytes := by
  cases o with
  | none => rfl
  | some s => exact encodeString_of_le (h s rfl)

/-- The writes, one after the other. -/
theorem fillConnect_eq (cfg : Config) {args : ConnectArgs} (hvalid : args.Valid) (b : Buffer Byte) :
    ∃ runs : List (List Byte), fillConnect cfg b args = runs.foldl Buffer.put b ∧
      runs.flatten = 0x10 :: (encodeRemainingLength args.body.length ++
        (args.headBytes ++ (args.willBytes ++ args.credentialBytes))) := by
  -- only the writes for the will differ
  have hhead : ∀ (will : List (List Byte)), will.flatten = args.willBytes →
      ([[0x10], encodeRemainingLength args.body.length, stringBytes PROTOCOL, [0x04], [args.flags],
        bigEndian args.keepAlive, stringBytes (args.clientId.getD .empty)] ++ will ++
        [args.username.elim [] stringBytes, args.password.elim [] stringBytes]).flatten =
      0x10 :: (encodeRemainingLength args.body.length ++
        (args.headBytes ++ (args.willBytes ++ args.credentialBytes))) := by
    intro will hwill
    simp [hwill, headBytes, credentialBytes]
  rw [fillConnect, connectLength_eq hvalid, elim_encodeString hvalid.username_le,
    elim_encodeString hvalid.password_le, putRemainingLength_eq _ (length_body_le hvalid),
    encodeString_of_le hvalid.clientId_le, encodeString_of_le (by decide : PROTOCOL.length ≤ 65535)]
  cases htopic : args.willTopic with
  | none => exact ⟨_, rfl, hhead [] (by rw [willBytes, htopic]; rfl)⟩
  | some topic =>
    cases hmemory : args.willPayload with
    | none => exact ⟨_, rfl, hhead [] (by rw [willBytes, htopic, hmemory]; rfl)⟩
    | some memory =>
      dsimp only
      rw [encodeString_of_le (hvalid.willTopic_le topic htopic)]
      exact ⟨_, rfl, hhead [stringBytes topic, bigEndian args.willLength, memory.take args.willLength.toNat]
        (by rw [willBytes, htopic, hmemory]; simp)⟩

end ConnectArgs

/-- **What is built**: the buffer is as long as was computed, and 0 where nothing is written. -/
theorem connect_spec {alloc : Alloc} (hmalloc : alloc.malloc = true) {args : ConnectArgs} (hvalid : args.Valid) :
    connect cfg alloc args = (.SUCCESS, { init 0 none with
      data := 0x10 :: (encodeRemainingLength args.body.length ++ args.body)
      size := (0x10 :: (encodeRemainingLength args.body.length ++ args.body)).length }) := by
  have hmax := args.length_body_le hvalid
  obtain ⟨b, hb⟩ : ∃ b, allocate cfg alloc args.body.length false = some b := by
    rw [allocate, if_neg (by simp), if_pos hmalloc]
    exact ⟨_, rfl⟩
  have hholds : b.HoldsThen (1 + (encodeRemainingLength args.body.length).length + args.body.length) 0 [] := by
    rw [allocate_eq_fill hb hmax]
    exact Buffer.holdsThen_fill _ _
  obtain ⟨runs, hfill, hruns⟩ := ConnectArgs.fillConnect_eq cfg hvalid b
  -- what is not written is what is missing
  have hlength : 1 + (encodeRemainingLength args.body.length).length + args.body.length - runs.flatten.length =
      args.missing := by
    rw [hruns]
    simp only [ConnectArgs.body, List.length_cons, List.length_append, List.length_replicate]
    omega
  have hfit : runs.flatten.length ≤ 1 + (encodeRemainingLength args.body.length).length + args.body.length := by
    rw [hruns]
    simp only [ConnectArgs.body, List.length_cons, List.length_append, List.length_replicate]
    omega
  have hdata : (fillConnect cfg b args).data = 0x10 ::
      (encodeRemainingLength args.body.length ++ args.body) := by
    rw [hfill, (hholds.foldl_put runs (by rw [List.length_nil]; omega)).data, List.nil_append, hlength, hruns]
    simp [ConnectArgs.body]
  rw [connect, if_neg hvalid.clientId, ConnectArgs.connectLength_eq hvalid, hb]
  dsimp only
  rw [ofBuffer, hdata]

/-! ### What it says -/

namespace ConnectArgs

/-- The fields behind the client id. -/
def fields (args : ConnectArgs) : Decoder Byte Message := do
  let will ← Decoder.optional args.willTopic.isSome (willFields args.willQos args.willRetain)
  let username ← Decoder.optional args.username.isSome Grammar.string
  let password ← Decoder.optional args.password.isSome Grammar.string
  return .connect args.cleanSession args.keepAlive.toNat (args.clientId.getD .empty).bytes will username password

theorem connectPayload_eq {args : ConnectArgs} (hvalid : args.Valid) (tail : List Byte) :
    connectPayload args.flags args.keepAlive.toNat (stringBytes (args.clientId.getD .empty) ++ tail) =
      args.fields tail := by
  obtain ⟨-, hwill, husername, hpassword, hclean, hdetails⟩ := flags_spec hvalid.willQos
  rw [connectPayload, (decodes_stringBytes hvalid.clientId_le).apply, fields]
  simp only [hwill, husername, hpassword, hclean, Bool.decide_eq_true]
  cases htopic : args.willTopic with
  | none => rfl
  | some topic =>
    obtain ⟨hqos, hretain⟩ := hdetails (by rw [htopic]; rfl)
    simp only [hqos, hretain, Bool.decide_eq_true]

theorem connect_apply {args : ConnectArgs} (hvalid : args.Valid) (tail : List Byte) :
    Grammar.connect (args.headBytes ++ tail) = if connectFlags args.flags then args.fields tail else none := by
  have hprotocol : PROTOCOL.bytes = [0x4D, 0x51, 0x54, 0x54] := by rfl
  rw [Grammar.connect, headBytes]
  simp only [List.append_assoc]
  rw [(decodes_stringBytes (by decide : PROTOCOL.length ≤ 65535)).apply,
    Decoder.ensure_apply hprotocol,
    (Decoder.decodes_item 0x04).apply, Decoder.ensure_apply rfl, (Decoder.decodes_item args.flags).apply]
  split_ifs with hflags
  · rw [Decoder.ensure_apply hflags, (decodes_bigEndian args.keepAlive).apply, connectPayload_eq hvalid]
  · rw [Decoder.ensure_apply_neg hflags]

/-- The decoder of a whole CONNECT. -/
theorem whole_connect {args : ConnectArgs} (hvalid : args.Valid) (m : Message) :
    Grammar.message.whole (0x10 :: (encodeRemainingLength args.body.length ++ args.body)) = some m ↔
      connectFlags args.flags ∧
        args.fields (args.willBytes ++ (args.credentialBytes ++ List.replicate args.missing 0)) =
          some (m, []) := by
  have hbody : Grammar.body 0x10 = Grammar.connect := by rw [Grammar.body, if_pos rfl]
  rw [Decoder.whole_eq_some, message_apply _ (length_body_le hvalid), hbody, body, connect_apply hvalid]
  split_ifs with hflags <;> simp [hflags]

theorem decodes_elim_stringBytes {o : Option CString} (h : ∀ s, o = some s → s.length ≤ 65535) :
    (Decoder.optional o.isSome Grammar.string).Decodes (o.elim [] stringBytes) (o.map CString.bytes) :=
  Decoder.Decodes.optional fun s hs => decodes_stringBytes (h s hs)

/-- A will with its payload. -/
theorem decodes_willBytes {args : ConnectArgs} (hvalid : args.Valid)
    (hpayload : args.willTopic.isSome → args.willPayload.isSome) :
    (Decoder.optional args.willTopic.isSome (willFields args.willQos args.willRetain)).Decodes args.willBytes
      (args.willTopic.map fun topic => ⟨topic.bytes, args.willMessage, args.willQos, args.willRetain⟩) := by
  rw [willBytes]
  cases htopic : args.willTopic with
  | none => exact Decoder.decodes_pure none
  | some topic =>
    obtain ⟨memory, hmemory⟩ := Option.isSome_iff_exists.mp (hpayload (by rw [htopic]; rfl))
    obtain ⟨htake, hlength⟩ := take_willLength hmemory (hvalid.willPayload_le memory hmemory)
    have hle : args.willMessage.length ≤ 65535 := by
      have := args.willLength.toNat_lt
      omega
    have hmessage := decodes_string hle
    rw [← hlength, UInt16.ofNat_toNat] at hmessage
    rw [hmemory]
    dsimp only
    rw [htake]
    refine Decoder.Decodes.present ((decodes_stringBytes (hvalid.willTopic_le topic htopic)).bind ?_)
    exact hmessage.map fun message => (⟨topic.bytes, message, args.willQos, args.willRetain⟩ : Will)

/-- Without anything missing the fields are decoded as what they are. -/
theorem fields_apply {args : ConnectArgs} (hvalid : args.Valid)
    (hpayload : args.willTopic.isSome → args.willPayload.isSome) :
    args.fields (args.willBytes ++ (args.credentialBytes ++ List.replicate args.missing 0)) =
      some (args.message, []) := by
  have hmissing : args.missing = 0 := by
    rw [missing]
    split
    · next topic htopic hmemory => simp [htopic, hmemory] at hpayload
    · rfl
  rw [hmissing, List.replicate_zero, credentialBytes, List.append_assoc, fields,
    (decodes_willBytes hvalid hpayload).apply, (decodes_elim_stringBytes hvalid.username_le).apply,
    (decodes_elim_stringBytes hvalid.password_le).apply]
  rfl

theorem decodes_zeros : Grammar.string.Decodes [0, 0] [] :=
  decodes_string (by decide : ([] : List Byte).length ≤ 65535)

/-- What is decoded as a will: the first two strings. -/
theorem fields_will {args : ConnectArgs} {topic : CString} (htopic : args.willTopic = some topic)
    {xs ys tail a c : List Byte} (hxs : Grammar.string.Decodes xs a) (hys : Grammar.string.Decodes ys c)
    (h : args.fields (xs ++ ys ++ tail) = some (args.message, [])) :
    topic.bytes = a ∧
      ∃ s, Decoder.optional args.username.isSome Grammar.string tail =
        some (args.username.map CString.bytes, s) := by
  have hwill : (Decoder.optional true (willFields args.willQos args.willRetain)).Decodes (xs ++ ys)
      (some ⟨a, c, args.willQos, args.willRetain⟩) :=
    (hxs.bind (hys.map fun c => (⟨a, c, args.willQos, args.willRetain⟩ : Will))).present
  rw [fields, htopic, Option.isSome_some, hwill.apply, Decoder.bind_apply] at h
  obtain ⟨⟨username, s⟩, husername, h⟩ := Option.bind_eq_some_iff.mp h
  rw [Decoder.bind_apply] at h
  obtain ⟨⟨password, s'⟩, -, h⟩ := Option.bind_eq_some_iff.mp h
  rw [Decoder.pure_apply, message, htopic] at h
  obtain ⟨-, -, -, hsaid, huser, -⟩ := Message.connect.inj (Prod.mk.inj (Option.some.inj h)).1
  have hsaid := (Will.mk.inj (Option.some.inj hsaid)).1
  exact ⟨hsaid.symm, s, husername.trans (congrArg (fun u => some (u, s)) huser)⟩

/-- **What is missing stays 0.** Of a will without a payload pointer the strings behind it are decoded as
the topic and the message, and then there are only zeros. -/
theorem fields_ne {args : ConnectArgs} (hvalid : args.Valid) {topic : CString}
    (htopic : args.willTopic = some topic)
    (hne : topic.bytes ≠ []) (hmemory : args.willPayload = none)
    (husername : args.password.isSome → args.username.isSome) :
    args.fields (args.willBytes ++ (args.credentialBytes ++ List.replicate args.missing 0)) ≠
      some (args.message, []) := by
  intro h
  have hwillBytes : args.willBytes = [] := by rw [willBytes, htopic, hmemory]
  have hzeros : List.replicate args.missing (0 : Byte) =
      [0, 0] ++ ([0, 0] ++ List.replicate (topic.length + args.willLength.toNat) 0) := by
    rw [missing, htopic, hmemory]
    show List.replicate (4 + topic.length + args.willLength.toNat) (0 : Byte) = _
    rw [Nat.add_assoc, List.replicate_add]
    rfl
  rw [hwillBytes, List.nil_append, credentialBytes, hzeros] at h
  cases huser : args.username with
  | none =>
    -- the topic is decoded from zeros
    have hpass : args.password = none := by
      cases hpass : args.password with
      | none => rfl
      | some password => simp [hpass, huser] at husername
    rw [huser, hpass] at h
    exact hne (fields_will htopic decodes_zeros decodes_zeros h).1
  | some username =>
    -- the topic is decoded from the user name, and the user name from zeros
    have hfirst := decodes_stringBytes (hvalid.username_le username huser)
    obtain ⟨tail, s, htopicBytes, hdecoded⟩ : ∃ (tail : List Byte) (s : List Byte),
        topic.bytes = username.bytes ∧
        Decoder.optional true Grammar.string ([0, 0] ++ tail) = some (some username.bytes, s) := by
      cases hpass : args.password with
      | none =>
        rw [huser, hpass] at h
        have hall : stringBytes username ++ [0, 0] ++
            ([0, 0] ++ List.replicate (topic.length + args.willLength.toNat) 0) =
            (some username).elim [] stringBytes ++ (none : Option CString).elim [] stringBytes ++
              ([0, 0] ++ ([0, 0] ++ List.replicate (topic.length + args.willLength.toNat) 0)) := by
          simp
        rw [← hall] at h
        obtain ⟨htopicBytes, s, hs⟩ := fields_will htopic hfirst decodes_zeros h
        rw [huser] at hs
        exact ⟨_, s, htopicBytes, hs⟩
      | some password =>
        rw [huser, hpass] at h
        obtain ⟨htopicBytes, s, hs⟩ := fields_will htopic hfirst
          (decodes_stringBytes (hvalid.password_le password hpass)) h
        rw [huser] at hs
        exact ⟨_, s, htopicBytes, hs⟩
    rw [decodes_zeros.present tail] at hdecoded
    have hempty := Option.some.inj (Prod.mk.inj (Option.some.inj hdecoded)).1
    exact hne (htopicBytes.trans hempty.symm)

end ConnectArgs

/-! ### The condition -/

/-- The constructor reads nothing but its arguments and succeeds, the packet is `size()` bytes, and by the
grammar they say what it was built from. -/
def EncodesArgs (cfg : Config) (alloc : Alloc) (args : ConnectArgs) : Prop :=
  args.ReadsInside ∧ ∃ packet, connect cfg alloc args = (.SUCCESS, packet) ∧ packet.data.length = packet.size ∧
    message.whole packet.data = some args.message ∧ args.message.Legal

/-- **A CONNECT encodes its arguments exactly if a will has a topic of some bytes and a payload pointer, a
payload of no length is a C string, and a password comes with a user name.** -/
theorem encodesArgs_iff (cfg : Config) (alloc : Alloc) (hmalloc : alloc.malloc = true) (args : ConnectArgs)
    (hvalid : args.Valid) : EncodesArgs cfg alloc args ↔ args.Sayable := by
  have hflags := (ConnectArgs.flags_spec hvalid.willQos).1
  have hlegal : args.message.Legal ↔ ∀ topic, args.willTopic = some topic → topic.bytes ≠ [] := by
    rw [ConnectArgs.message, Message.Legal]
    cases args.willTopic <;> simp
  constructor
  · rintro ⟨hreads, packet, hbuild, -, hwhole, hmessage⟩
    rw [connect_spec hmalloc hvalid] at hbuild
    obtain rfl := (Prod.mk.inj hbuild).2
    obtain ⟨hconnectFlags, hfields⟩ := (ConnectArgs.whole_connect hvalid _).mp hwhole
    have husername := hflags.mp hconnectFlags
    refine ⟨fun topic htopic => ⟨hlegal.mp hmessage topic htopic, ?_⟩,
      ConnectArgs.readsInside_iff.mp hreads, husername⟩
    cases hmemory : args.willPayload with
    | none =>
      have hne := hlegal.mp hmessage topic htopic
      exact absurd hfields (ConnectArgs.fields_ne hvalid htopic hne hmemory husername)
    | some memory => rfl
  · rintro ⟨hwill, hterminated, husername⟩
    have hpayload : args.willTopic.isSome → args.willPayload.isSome := by
      intro hsome
      obtain ⟨topic, htopic⟩ := Option.isSome_iff_exists.mp hsome
      exact (hwill topic htopic).2
    refine ⟨ConnectArgs.readsInside_iff.mpr hterminated, _, connect_spec hmalloc hvalid, rfl, ?_,
      hlegal.mpr fun topic htopic => (hwill topic htopic).1⟩
    exact (ConnectArgs.whole_connect hvalid _).mpr ⟨hflags.mpr husername,
      ConnectArgs.fields_apply hvalid hpayload⟩

/-- A will and credentials. -/
def lastWords : ConnectArgs where
  cleanSession := true
  username := some ⟨[0x77], by simp⟩
  password := some ⟨[0x70], by simp⟩
  willTopic := some ⟨[0x74, 0x2F], by simp⟩
  willRetain := true
  willQos := 1
  willPayload := some [0x62, 0x79, 0x65, 0]
  willPayloadLength := 0
  keepAlive := 15
  clientId := some ⟨[0x79], by simp⟩

/-- The payload is a C string. -/
theorem encodesArgs_iff_lastWords : EncodesArgs .linux ⟨0, true, true⟩ lastWords ↔ lastWords.Sayable :=
  encodesArgs_iff .linux ⟨0, true, true⟩ rfl lastWords {
    clientId := by decide
    clientId_le := by decide
    willTopic_le := fun topic h => by obtain rfl := Option.some.inj h; decide
    willQos := by decide
    willPayload_le := fun memory h => by obtain rfl := Option.some.inj h; decide
    username_le := fun username h => by obtain rfl := Option.some.inj h; decide
    password_le := fun password h => by obtain rfl := Option.some.inj h; decide }

/-- A will without a payload pointer is not decoded: its two strings are counted and not written. -/
theorem not_encodesArgs_all : ¬ ∀ (alloc : Alloc) (args : ConnectArgs), alloc.malloc = true → args.Valid →
    EncodesArgs .linux alloc args := by
  intro h
  let args : ConnectArgs := { lastWords with username := none, password := none, willPayload := none,
                                             willPayloadLength := 0 }
  have hvalid : args.Valid := {
    clientId := by decide
    clientId_le := by decide
    willTopic_le := fun topic h => by obtain rfl := Option.some.inj h; decide
    willQos := by decide
    willPayload_le := fun memory h => by cases h
    username_le := fun username h => by cases h
    password_le := fun password h => by cases h }
  obtain ⟨-, packet, hbuild, -, hwhole, -⟩ := h ⟨0, true, true⟩ args rfl hvalid
  have hpacket : packet.data = (connect .linux ⟨0, true, true⟩ args).2.data := by rw [hbuild]
  rw [hpacket] at hwhole
  revert hwhole
  decide +kernel

end Packet

end EspMqttClient
