import BearTorrent.Client.Message

/-!
# Frames

An encoded message is a frame: a length field and as many bytes as it says. `decode` takes the
length field for granted and reads a `Request` or a `Cancel` off the front of what it is given, so
a message may also come out of bytes that are no frame. Of bytes that are too short for the kind of
message that they name, it takes a slice that is out of range, which panics.
-/

namespace BearTorrent

/-- The first four bytes are the number of those that follow. -/
def Framed (buf : Bytes) : Prop :=
  4 ≤ buf.length ∧ BigEndian.ofBytes (buf.take 4) = buf.length - 4

namespace Message

/-- The payload of a `Piece` leaves room for the five bytes that are counted with it. -/
def Fits : Message → Prop
  | .piece _ payload => payload.length ≤ 2 ^ 32 - 6
  | _                => True

/-- What follows the length field: the number of the kind of message, and the fields. -/
def body : Message → Bytes
  | .request seeder index begin length hash =>
    6 :: (toBeBytes seeder ++ (toBeBytes index ++ (toBeBytes begin ++
      (toBeBytes length ++ hash.val))))
  | .piece index payload => 7 :: (toBeBytes index ++ payload)
  | .cancel seeder index begin length =>
    8 :: (toBeBytes seeder ++ (toBeBytes index ++ (toBeBytes begin ++ toBeBytes length)))

/-- The length field of a message. -/
def lengthField (env : Env) : Message → Except Fault UInt32
  | .request _ _ _ _ _ => .ok 37
  | .piece _ payload   => addU32 env 5 (UInt32.ofNat payload.length)
  | .cancel _ _ _ _    => .ok 17

variable {env : Env} {m m' : Message} {buf : Bytes}

lemma encode_eq_ok :
    m.encode env = .ok buf ↔
      ∃ length, m.lengthField env = .ok length ∧ toBeBytes length ++ m.body = buf := by
  cases m with
  | request seeder index begin length hash => simp [encode, lengthField, body, pure, Except.pure]
  | cancel seeder index begin length => simp [encode, lengthField, body, pure, Except.pure]
  | piece index payload =>
    rw [encode, except_bind_eq_ok]
    simp [lengthField, body, pure, Except.pure]

lemma length_body_request (seeder index begin length : UInt32) (hash : Digest) :
    (request seeder index begin length hash).body.length = 37 := by
  simp [body, hash.property]

lemma length_body_cancel (seeder index begin length : UInt32) :
    (cancel seeder index begin length).body.length = 17 := by
  simp [body]

lemma length_body_piece (index : UInt32) (payload : Bytes) :
    (piece index payload).body.length = payload.length + 5 := by
  simp only [body, List.length_cons, List.length_append, length_toBeBytes]
  omega

/-- A message that fits has a length field, and it counts the bytes of the rest. -/
lemma Fits.lengthField (env : Env) (hm : m.Fits) :
    ∃ length, m.lengthField env = .ok length ∧ length.toNat = m.body.length := by
  cases m with
  | request seeder index begin length hash =>
    exact ⟨37, rfl, (length_body_request seeder index begin length hash).symm⟩
  | cancel seeder index begin length =>
    exact ⟨17, rfl, (length_body_cancel seeder index begin length).symm⟩
  | piece index payload =>
    have hpayload : payload.length ≤ 2 ^ 32 - 6 := hm
    have hlt : payload.length < 2 ^ 32 := by omega
    have hlen : (UInt32.ofNat payload.length).toNat = payload.length :=
      UInt32.toNat_ofNat_of_lt' hlt
    have hsum : (5 : UInt32).toNat + (UInt32.ofNat payload.length).toNat < 2 ^ 32 := by
      rw [hlen, show (5 : UInt32).toNat = 5 from rfl]
      omega
    refine ⟨_, addU32_of_lt env hsum, ?_⟩
    rw [length_body_piece, UInt32.toNat_add, Nat.mod_eq_of_lt hsum, hlen, Nat.add_comm]
    rfl

/-- Every message that fits is encoded as a frame, from which it is decoded again; no other message
is encoded in the same way. -/
theorem encode_round_trip (env : Env) {m m' : Message} (hm : m.Fits) :
    ∃ buf, m.encode env = .ok buf ∧ decode buf = .ok (some m) ∧ Framed buf ∧
      (m' ≠ m → m'.encode env ≠ .ok buf) := by
  obtain ⟨length, hlength, hcount⟩ := hm.lengthField env
  have hbuf : m.encode env = .ok (toBeBytes length ++ m.body) :=
    encode_eq_ok.mpr ⟨length, hlength, rfl⟩
  refine ⟨_, hbuf, decode_encode hbuf, ⟨?_, ?_⟩, fun hne hbuf' => hne ?_⟩
  · rw [List.length_append, length_toBeBytes]
    exact Nat.le_add_right _ _
  · rw [List.take_left' (length_toBeBytes length), toBeBytes,
      BigEndian.ofBytes_toBytes_of_lt length.toNat_lt, hcount, List.length_append,
      BigEndian.length_toBytes, Nat.add_sub_cancel_left]
  · have hdecoded := (decode_encode hbuf').symm.trans (decode_encode hbuf)
    exact Option.some.inj (Except.ok.inj hdecoded)

def frameEnv : Env := ⟨fun _ => Digest.zero, true⟩

/-- A `Piece` with one byte, and the `Cancel` of it. -/
theorem encode_round_trip_letter :
    ∃ buf, (piece 0 [97]).encode frameEnv = .ok buf ∧ decode buf = .ok (some (piece 0 [97])) ∧
      Framed buf ∧ (cancel 0 0 0 1 ≠ piece 0 [97] →
        (cancel 0 0 0 1).encode frameEnv ≠ .ok buf) :=
  encode_round_trip frameEnv (by decide : [(97 : UInt8)].length ≤ 2 ^ 32 - 6)

/-! ### What is decoded -/

/-- Reading a slice takes it off the front of the rest. -/
lemma sliceRange_eq_ok {start stop : ℕ} {bytes : Bytes}
    (h : sliceRange buf start stop = .ok bytes) :
    bytes.length = stop - start ∧ stop ≤ buf.length ∧ buf.drop start = bytes ++ buf.drop stop := by
  rw [sliceRange] at h
  split_ifs at h with hin
  obtain rfl := Except.ok.inj h
  have hdrop : buf.drop stop = (buf.drop start).drop (stop - start) := by
    rw [List.drop_drop, Nat.add_sub_cancel' hin.1]
  refine ⟨?_, hin.2, ?_⟩
  · rw [List.length_take, List.length_drop]
    omega
  · rw [hdrop, List.take_append_drop]

lemma readU32_eq_ok {start : ℕ} {v : UInt32} (h : readU32 buf start = .ok v) :
    buf.drop start = toBeBytes v ++ buf.drop (start + 4) := by
  rw [readU32] at h
  cases hslice : sliceRange buf start (start + 4) with
  | error e =>
    rw [hslice] at h
    cases h
  | ok bytes =>
    rw [hslice] at h
    obtain rfl := Except.ok.inj h
    obtain ⟨hlen, -, hdrop⟩ := sliceRange_eq_ok hslice
    rw [Nat.add_sub_cancel_left] at hlen
    have hlt : BigEndian.ofBytes bytes < 2 ^ 32 := by
      have := BigEndian.ofBytes_lt bytes
      rwa [hlen] at this
    have hbytes : toBeBytes (UInt32.ofNat (BigEndian.ofBytes bytes)) = bytes := by
      rw [toBeBytes, UInt32.toNat_ofNat_of_lt' hlt, ← hlen, BigEndian.toBytes_ofBytes]
    rw [hbytes]
    exact hdrop

lemma readHash_eq_ok {start : ℕ} {hash : Digest} (h : readHash buf start = .ok hash) :
    buf.drop start = hash.val ++ buf.drop (start + 20) := by
  obtain ⟨bytes, hslice, h⟩ := except_bind_eq_ok.mp h
  obtain ⟨-, -, hdrop⟩ := sliceRange_eq_ok hslice
  cases hbytes : Digest.ofBytes? bytes with
  | none =>
    rw [hbytes] at h
    cases h
  | some hash' =>
    rw [hbytes] at h
    obtain rfl := Except.ok.inj h
    rw [hdrop, Digest.ofBytes?_eq_some.mp hbytes]

/-- The fields that a `Request` and a `Cancel` begin with, as they are read. -/
lemma drop_fields {seeder index begin length : UInt32} (h₅ : readU32 buf 5 = .ok seeder)
    (h₉ : readU32 buf 9 = .ok index) (h₁₃ : readU32 buf 13 = .ok begin)
    (h₁₇ : readU32 buf 17 = .ok length) :
    buf.drop 5 = toBeBytes seeder ++ (toBeBytes index ++ (toBeBytes begin ++
      (toBeBytes length ++ buf.drop 21))) := by
  rw [readU32_eq_ok h₅, readU32_eq_ok h₉, readU32_eq_ok h₁₃, readU32_eq_ok h₁₇]

/-- A message that is decoded stands behind the length field; what follows a `Request` or a `Cancel`
is ignored. -/
lemma decode_eq_ok (h : decode buf = .ok (some m)) :
    ∃ rest, buf.drop 4 = m.body ++ rest ∧ ∀ index payload, m = piece index payload → rest = [] := by
  rw [decode] at h
  split_ifs at h with hshort
  · cases h
  cases hkind : (buf[4]? : Option UInt8) with
  | none =>
    rw [hkind] at h
    cases h
  | some messageId =>
    have hdrop : buf.drop 4 = messageId :: buf.drop 5 := by
      obtain ⟨hlt, hid⟩ := List.getElem?_eq_some_iff.mp hkind
      rw [List.drop_eq_getElem_cons hlt, hid]
    rw [hkind] at h
    simp only at h
    split_ifs at h with h6 h7 h8
    · obtain ⟨seeder, h₅, h⟩ := except_bind_eq_ok.mp h
      obtain ⟨index, h₉, h⟩ := except_bind_eq_ok.mp h
      obtain ⟨begin, h₁₃, h⟩ := except_bind_eq_ok.mp h
      obtain ⟨length, h₁₇, h⟩ := except_bind_eq_ok.mp h
      obtain ⟨hash, h₂₁, h⟩ := except_bind_eq_ok.mp h
      obtain rfl := Option.some.inj (Except.ok.inj h)
      refine ⟨buf.drop 41, ?_, by simp⟩
      rw [hdrop, drop_fields h₅ h₉ h₁₃ h₁₇, readHash_eq_ok h₂₁, h6]
      simp [body]
    · obtain ⟨index, h₅, h⟩ := except_bind_eq_ok.mp h
      obtain ⟨payload, h₉, h⟩ := except_bind_eq_ok.mp h
      obtain rfl := Option.some.inj (Except.ok.inj h)
      obtain ⟨-, -, hpayload⟩ := sliceRange_eq_ok h₉
      rw [List.drop_length, List.append_nil] at hpayload
      refine ⟨[], ?_, fun _ _ _ => rfl⟩
      rw [hdrop, readU32_eq_ok h₅, hpayload, h7]
      simp [body]
    · obtain ⟨seeder, h₅, h⟩ := except_bind_eq_ok.mp h
      obtain ⟨index, h₉, h⟩ := except_bind_eq_ok.mp h
      obtain ⟨begin, h₁₃, h⟩ := except_bind_eq_ok.mp h
      obtain ⟨length, h₁₇, h⟩ := except_bind_eq_ok.mp h
      obtain rfl := Option.some.inj (Except.ok.inj h)
      refine ⟨buf.drop 21, ?_, by simp⟩
      rw [hdrop, drop_fields h₅ h₉ h₁₃ h₁₇, h8]
      simp [body]
    · cases h

/-- The bytes are a whole frame. The length field is that of what follows, as `u32`; nothing follows
a `Request` or a `Cancel`; on a build with overflow checks the length of a payload can be computed
with. -/
structure WholeFrame (env : Env) (buf : Bytes) : Prop where
  lengthField : buf.take 4 = toBeBytes (UInt32.ofNat (buf.length - 4))
  request : (buf[4]? : Option UInt8) = some 6 → buf.length = 41
  cancel : (buf[4]? : Option UInt8) = some 8 → buf.length = 21
  piece : (buf[4]? : Option UInt8) = some 7 → env.overflowChecks = true →
    5 + (buf.length - 9) % 2 ^ 32 < 2 ^ 32

/-- An accepted message is encoded as the given bytes exactly when its length field is that of the
bytes and nothing is left behind it. -/
lemma encode_eq_iff {rest : Bytes} (hlen : 4 ≤ buf.length) (hdrop : buf.drop 4 = m.body ++ rest) :
    m.encode env = .ok buf ↔
      ∃ length, m.lengthField env = .ok length ∧ toBeBytes length = buf.take 4 ∧ rest = [] := by
  have hbuf : buf.take 4 ++ (m.body ++ rest) = buf := by rw [← hdrop, List.take_append_drop]
  rw [encode_eq_ok]
  refine exists_congr fun length => and_congr_right fun _ => ?_
  constructor
  · intro h
    rw [← hbuf] at h
    obtain ⟨htake, hrest⟩ := List.append_inj h (by simp; omega)
    exact ⟨htake, List.self_eq_append_right.mp hrest⟩
  · rintro ⟨htake, rfl⟩
    rw [List.append_nil] at hbuf
    rw [htake, hbuf]

/-- The length of the accepted bytes, and the number of the kind of message. -/
lemma length_of_drop {rest : Bytes} (hlen : 4 ≤ buf.length) (hdrop : buf.drop 4 = m.body ++ rest) :
    buf.length = m.body.length + rest.length + 4 ∧ (buf[4]? : Option UInt8) = m.body.head? := by
  constructor
  · have h := congrArg List.length hdrop
    rw [List.length_drop, List.length_append] at h
    omega
  · have h := congrArg (·[0]?) hdrop
    simp only [List.getElem?_drop, Nat.add_zero] at h
    rw [h]
    cases m <;> rfl

/-- Accepted bytes are the encoding of their message exactly when they are a whole frame. -/
theorem decode_whole_iff (env : Env) (h : decode buf = .ok (some m)) :
    m.encode env = .ok buf ↔ WholeFrame env buf := by
  have hlen : 4 ≤ buf.length := by
    by_contra hshort
    rw [decode, if_pos (Nat.not_le.mp hshort)] at h
    cases h
  obtain ⟨rest, hdrop, hrest⟩ := decode_eq_ok h
  obtain ⟨hlength, hkind⟩ := length_of_drop hlen hdrop
  rw [encode_eq_iff hlen hdrop]
  cases m with
  | request seeder index begin length hash =>
    rw [length_body_request] at hlength
    constructor
    · rintro ⟨_, ⟨⟩, htake, rfl⟩
      have h41 : buf.length = 41 := hlength
      refine ⟨?_, fun _ => h41, by simp [hkind, body], by simp [hkind, body]⟩
      rw [← htake, h41]
      rfl
    · intro hwhole
      have h41 := hwhole.request hkind
      refine ⟨37, rfl, ?_, List.length_eq_zero_iff.mp (by omega)⟩
      rw [hwhole.lengthField, h41]
      rfl
  | cancel seeder index begin length =>
    rw [length_body_cancel] at hlength
    constructor
    · rintro ⟨_, ⟨⟩, htake, rfl⟩
      have h21 : buf.length = 21 := hlength
      refine ⟨?_, by simp [hkind, body], fun _ => h21, by simp [hkind, body]⟩
      rw [← htake, h21]
      rfl
    · intro hwhole
      have h21 := hwhole.cancel hkind
      refine ⟨17, rfl, ?_, List.length_eq_zero_iff.mp (by omega)⟩
      rw [hwhole.lengthField, h21]
      rfl
  | piece index payload =>
    obtain rfl := hrest index payload rfl
    rw [length_body_piece, List.length_nil] at hlength
    have hnine : buf.length - 9 = payload.length := by omega
    have hfield : UInt32.ofNat (buf.length - 4) = 5 + UInt32.ofNat payload.length := by
      rw [show buf.length - 4 = 5 + payload.length by omega, UInt32.ofNat_add]
      rfl
    have hsum : (5 : UInt32).toNat + (UInt32.ofNat payload.length).toNat
        = 5 + payload.length % 2 ^ 32 := by
      rw [UInt32.toNat_ofNat']
      rfl
    constructor
    · rintro ⟨length, hadd, htake, -⟩
      rw [lengthField, addU32, hsum] at hadd
      split_ifs at hadd with hover
      obtain rfl := Except.ok.inj hadd
      refine ⟨by rw [← htake, hfield], by simp [hkind, body], by simp [hkind, body],
        fun _ hchecks => ?_⟩
      rw [hnine]
      exact Nat.not_le.mp fun hle => hover ⟨hchecks, hle⟩
    · intro hwhole
      refine ⟨5 + UInt32.ofNat payload.length, ?_, ?_, rfl⟩
      · have hroom := hwhole.piece hkind
        rw [hnine] at hroom
        rw [lengthField, addU32, hsum, if_neg]
        rintro ⟨hchecks, hle⟩
        exact absurd (hroom hchecks) (Nat.not_lt.mpr hle)
      · rw [hwhole.lengthField, hfield]

/-- The frame of a `Piece` of one byte. -/
def pieceFrame : Bytes := [0, 0, 0, 6, 7, 0, 0, 0, 0, 97]

theorem decode_whole_iff_frame :
    (piece 0 [97]).encode frameEnv = .ok pieceFrame ↔ WholeFrame frameEnv pieceFrame :=
  decode_whole_iff frameEnv (by decide : decode pieceFrame = .ok (some (piece 0 [97])))

/-- Without its last byte the frame is still accepted, as a `Piece` without payload. -/
theorem truncated_piece_accepted :
    pieceFrame.take 9 <+: pieceFrame ∧ (pieceFrame.take 9).length < pieceFrame.length ∧
      decode (pieceFrame.take 9) = .ok (some (piece 0 [])) ∧
      (piece 0 []).encode frameEnv ≠ .ok (pieceFrame.take 9) := by
  refine ⟨List.take_prefix _ _, by decide, by decide, by decide⟩

/-! ### Bytes out of range -/

lemma sliceRange_of_le {start stop : ℕ} (h : start ≤ stop) (hstop : stop ≤ buf.length) :
    ∃ bytes, sliceRange buf start stop = .ok bytes :=
  ⟨_, if_pos ⟨h, hstop⟩⟩

lemma sliceRange_of_lt {start stop : ℕ} (h : buf.length < stop) :
    sliceRange buf start stop = .error .panic :=
  if_neg fun hin => absurd hin.2 (Nat.not_le.mpr h)

/-- A field is read when the buffer reaches to its end; otherwise the slice panics. -/
lemma readU32_of_le {start : ℕ} (h : start + 4 ≤ buf.length) : ∃ v, readU32 buf start = .ok v := by
  obtain ⟨bytes, hslice⟩ := sliceRange_of_le (Nat.le_add_right start 4) h
  exact ⟨_, by rw [readU32, hslice]; rfl⟩

lemma readU32_of_lt {start : ℕ} (h : buf.length < start + 4) :
    readU32 buf start = .error .panic := by
  rw [readU32, sliceRange_of_lt h]
  rfl

lemma readHash_of_le {start : ℕ} (h : start + 20 ≤ buf.length) :
    ∃ hash, readHash buf start = .ok hash := by
  obtain ⟨bytes, hslice⟩ := sliceRange_of_le (Nat.le_add_right start 20) h
  have hlen := (sliceRange_eq_ok hslice).1
  rw [Nat.add_sub_cancel_left] at hlen
  refine ⟨⟨bytes, hlen⟩, ?_⟩
  have hbytes : Digest.ofBytes? bytes = some ⟨bytes, hlen⟩ := Digest.ofBytes?_eq_some.mpr rfl
  rw [readHash, hslice]
  simp only [bind, Except.bind, hbytes]
  rfl

lemma readHash_of_lt {start : ℕ} (h : buf.length < start + 20) :
    readHash buf start = .error .panic := by
  rw [readHash, sliceRange_of_lt h]
  rfl

/-- The four fields of a `Request` and a `Cancel` are read together, or a slice panics. -/
lemma readFields_of_le (h : 21 ≤ buf.length) : ∃ seeder index begin length : UInt32,
    readU32 buf 5 = .ok seeder ∧ readU32 buf 9 = .ok index ∧ readU32 buf 13 = .ok begin ∧
      readU32 buf 17 = .ok length := by
  obtain ⟨seeder, h₅⟩ : ∃ v, readU32 buf 5 = .ok v := readU32_of_le (by omega)
  obtain ⟨index, h₉⟩ : ∃ v, readU32 buf 9 = .ok v := readU32_of_le (by omega)
  obtain ⟨begin, h₁₃⟩ : ∃ v, readU32 buf 13 = .ok v := readU32_of_le (by omega)
  obtain ⟨length, h₁₇⟩ : ∃ v, readU32 buf 17 = .ok v := readU32_of_le (by omega)
  exact ⟨seeder, index, begin, length, h₅, h₉, h₁₃, h₁₇⟩

lemma readFields_of_lt {α : Type} (h : buf.length < 21)
    (f : UInt32 → UInt32 → UInt32 → UInt32 → Except Fault α) :
    (do
      let seeder ← readU32 buf 5
      let index ← readU32 buf 9
      let begin ← readU32 buf 13
      let length ← readU32 buf 17
      f seeder index begin length) = .error .panic := by
  have hlast : readU32 buf 17 = .error .panic := readU32_of_lt h
  have hread (start : ℕ) : (∃ v, readU32 buf start = .ok v) ∨
      readU32 buf start = .error .panic := by
    rcases Nat.lt_or_ge buf.length (start + 4) with hlt | hle
    · exact .inr (readU32_of_lt hlt)
    · exact .inl (readU32_of_le hle)
  rcases hread 5 with ⟨seeder, h₅⟩ | h₅
  · rcases hread 9 with ⟨index, h₉⟩ | h₉
    · rcases hread 13 with ⟨begin, h₁₃⟩ | h₁₃
      · rw [h₅, h₉, h₁₃, hlast]
        rfl
      · rw [h₅, h₉, h₁₃]
        rfl
    · rw [h₅, h₉]
      rfl
  · rw [h₅]
    rfl

/-- Every index and slice that `decode` takes of the bytes is in range. -/
structure InBounds (buf : Bytes) : Prop where
  kind : buf.length ≠ 4
  request : (buf[4]? : Option UInt8) = some 6 → 41 ≤ buf.length
  piece : (buf[4]? : Option UInt8) = some 7 → 9 ≤ buf.length
  cancel : (buf[4]? : Option UInt8) = some 8 → 21 ≤ buf.length

lemma decode_of_inBounds (h : InBounds buf) : ∃ m, decode buf = .ok m := by
  rw [decode]
  split_ifs with hshort
  · exact ⟨none, rfl⟩
  · have hfour := h.kind
    cases hkind : (buf[4]? : Option UInt8) with
    | none =>
      rw [List.getElem?_eq_none_iff] at hkind
      omega
    | some messageId =>
      simp only
      split_ifs with h6 h7 h8
      · have hlen := h.request (by rw [hkind, h6])
        obtain ⟨seeder, index, begin, length, h₅, h₉, h₁₃, h₁₇⟩ :=
          readFields_of_le (show 21 ≤ buf.length by omega)
        obtain ⟨hash, h₂₁⟩ : ∃ v, readHash buf 21 = .ok v := readHash_of_le (by omega)
        rw [h₅, h₉, h₁₃, h₁₇, h₂₁]
        exact ⟨_, rfl⟩
      · have hlen := h.piece (by rw [hkind, h7])
        obtain ⟨index, h₅⟩ : ∃ v, readU32 buf 5 = .ok v := readU32_of_le (by omega)
        obtain ⟨payload, h₉⟩ := sliceRange_of_le hlen le_rfl
        rw [h₅, h₉]
        exact ⟨_, rfl⟩
      · have hlen := h.cancel (by rw [hkind, h8])
        obtain ⟨seeder, index, begin, length, h₅, h₉, h₁₃, h₁₇⟩ := readFields_of_le hlen
        rw [h₅, h₉, h₁₃, h₁₇]
        exact ⟨_, rfl⟩
      · exact ⟨none, rfl⟩

lemma decode_of_not_inBounds (h : ¬ InBounds buf) : decode buf = .error .panic := by
  have hshort : ¬ buf.length < 4 := by
    intro hshort
    have hkind : (buf[4]? : Option UInt8) = none := List.getElem?_eq_none (by omega)
    exact h ⟨by omega, by simp [hkind], by simp [hkind], by simp [hkind]⟩
  rw [decode, if_neg hshort]
  cases hkind : (buf[4]? : Option UInt8) with
  | none => rfl
  | some messageId =>
    have hfive : buf.length ≠ 4 := by
      have := (List.getElem?_eq_some_iff.mp hkind).1
      omega
    simp only
    split_ifs with h6 h7 h8
    · subst h6
      have hlen : buf.length < 41 := by
        by_contra hlen
        exact h ⟨hfive, fun _ => by omega, by simp [hkind], by simp [hkind]⟩
      rcases Nat.lt_or_ge buf.length 21 with hlt | hle
      · exact readFields_of_lt hlt _
      · obtain ⟨seeder, index, begin, length, h₅, h₉, h₁₃, h₁₇⟩ := readFields_of_le hle
        rw [h₅, h₉, h₁₃, h₁₇, readHash_of_lt hlen]
        rfl
    · subst h7
      have hlen : buf.length < 9 := by
        by_contra hlen
        exact h ⟨hfive, by simp [hkind], fun _ => by omega, by simp [hkind]⟩
      rw [readU32_of_lt hlen]
      rfl
    · subst h8
      have hlen : buf.length < 21 := by
        by_contra hlen
        exact h ⟨hfive, by simp [hkind], by simp [hkind], fun _ => by omega⟩
      exact readFields_of_lt hlen _
    · exact absurd ⟨hfive, by simp [hkind, h6], by simp [hkind, h7], by simp [hkind, h8]⟩ h

/-- `decode` returns exactly when it stays in range, and panics otherwise. -/
theorem decode_returns_iff (buf : Bytes) :
    ((∃ m, decode buf = .ok m) ↔ InBounds buf) ∧
      (¬ InBounds buf → decode buf = .error .panic) := by
  refine ⟨⟨fun ⟨m, hm⟩ => ?_, decode_of_inBounds⟩, decode_of_not_inBounds⟩
  by_contra h
  rw [decode_of_not_inBounds h] at hm
  cases hm

/-- Four bytes have no fifth one, and the number of a `Request` alone has no fields. -/
theorem short_frame_panics :
    decode [0, 0, 0, 0] = .error .panic ∧ decode [0, 0, 0, 37, 6] = .error .panic ∧
      ¬ ∀ buf, ∃ m, decode buf = .ok m := by
  refine ⟨rfl, rfl, fun h => ?_⟩
  obtain ⟨m, hm⟩ := h [0, 0, 0, 0]
  cases hm

end Message

end BearTorrent
