import BearTorrent.Client.Basic
import BearTorrent.Lib.BigEndian

/-!
# Messages between peers

A message and its bytes: a length, the number of the kind of message, and the fields. `decode`
does not look at the length. Slices that are out of range make it panic.
-/

namespace BearTorrent

/-- A message of the peer protocol. `seeder` is the position of the asked connection in the
leecher's list of connections. -/
inductive Message where
  | request (seeder index begin length : UInt32) (hash : Digest)
  | piece (index : UInt32) (piece : Bytes)
  | cancel (seeder index begin length : UInt32)
  deriving DecidableEq

/-- The piece that a message is about. -/
def Message.index : Message → UInt32
  | .request _ index _ _ _ => index
  | .piece index _         => index
  | .cancel _ index _ _    => index

/-- The `Cancel` for a request. -/
def Message.toCancel : Message → Option Message
  | .request seeder index begin length _ => some (.cancel seeder index begin length)
  | _                                    => none

/-- `to_be_bytes` on `u32`. -/
def toBeBytes (v : UInt32) : Bytes := BigEndian.toBytes 4 v.toNat

/-- `buf[start..stop]` -/
def sliceRange (buf : Bytes) (start stop : ℕ) : Except Fault Bytes :=
  if start ≤ stop ∧ stop ≤ buf.length then .ok ((buf.drop start).take (stop - start))
  else .error .panic

/-- `u32::from_be_bytes(buf[start..start + 4])` -/
def readU32 (buf : Bytes) (start : ℕ) : Except Fault UInt32 :=
  (fun bytes => UInt32.ofNat (BigEndian.ofBytes bytes)) <$> sliceRange buf start (start + 4)

/-- `buf[start..start + 20]` as a hash. -/
def readHash (buf : Bytes) (start : ℕ) : Except Fault Digest := do
  let bytes ← sliceRange buf start (start + 20)
  match Digest.ofBytes? bytes with
  | some hash => pure hash
  | none      => throw .panic

/-- Encode a message. -/
def Message.encode (env : Env) : Message → Except Fault Bytes
  | .request seeder index begin length hash =>
    pure (toBeBytes 37 ++ [6] ++ toBeBytes seeder ++ toBeBytes index ++ toBeBytes begin
      ++ toBeBytes length ++ hash.val)
  | .piece index payload => do
    let length ← addU32 env 5 (UInt32.ofNat payload.length)
    pure (toBeBytes length ++ [7] ++ toBeBytes index ++ payload)
  | .cancel seeder index begin length =>
    pure (toBeBytes 17 ++ [8] ++ toBeBytes seeder ++ toBeBytes index ++ toBeBytes begin
      ++ toBeBytes length)

/-- Decode a message; `none` for an unknown kind or fewer than four bytes. -/
def Message.decode (buf : Bytes) : Except Fault (Option Message) :=
  if buf.length < 4 then pure none
  else
    match (buf[4]? : Option UInt8) with
    | none           => throw .panic
    | some messageId =>
      if messageId = 6 then do
        let seeder ← readU32 buf 5
        let index ← readU32 buf 9
        let begin ← readU32 buf 13
        let length ← readU32 buf 17
        let hash ← readHash buf 21
        pure (some (.request seeder index begin length hash))
      else if messageId = 7 then do
        let index ← readU32 buf 5
        let payload ← sliceRange buf 9 buf.length
        pure (some (.piece index payload))
      else if messageId = 8 then do
        let seeder ← readU32 buf 5
        let index ← readU32 buf 9
        let begin ← readU32 buf 13
        let length ← readU32 buf 17
        pure (some (.cancel seeder index begin length))
      else pure none

/-! ### What is encoded is decoded -/

@[simp] lemma length_toBeBytes (v : UInt32) : (toBeBytes v).length = 4 :=
  BigEndian.length_toBytes 4 _

lemma ofBytes_toBeBytes (v : UInt32) : UInt32.ofNat (BigEndian.ofBytes (toBeBytes v)) = v := by
  rw [toBeBytes, BigEndian.ofBytes_toBytes_of_lt v.toNat_lt]
  exact UInt32.ofNat_toNat

/-- The part of a buffer that lies between two others. -/
lemma sliceRange_append {a b c : Bytes} {start stop : ℕ} (ha : a.length = start)
    (hb : start + b.length = stop) : sliceRange (a ++ b ++ c) start stop = .ok b := by
  subst ha hb
  rw [sliceRange, if_pos (by simp only [List.length_append]; omega), List.append_assoc,
    List.drop_left, Nat.add_sub_cancel_left, List.take_left]

lemma readU32_append {a c buf : Bytes} {start : ℕ} (v : UInt32)
    (hbuf : buf = a ++ toBeBytes v ++ c) (ha : a.length = start) :
    readU32 buf start = .ok v := by
  rw [readU32, hbuf, sliceRange_append ha (by simp)]
  exact congrArg Except.ok (ofBytes_toBeBytes v)

lemma readHash_append {a buf : Bytes} {start : ℕ} (hash : Digest) (hbuf : buf = a ++ hash.val)
    (ha : a.length = start) : readHash buf start = .ok hash := by
  have hslice : sliceRange buf start (start + 20) = .ok hash.val := by
    rw [hbuf, ← List.append_nil (a ++ hash.val)]
    exact sliceRange_append ha (by rw [hash.property])
  rw [readHash, hslice]
  simp only [bind, Except.bind, Digest.ofBytes?_val]
  rfl

/-- The fields that a `Request` and a `Cancel` begin with. -/
lemma read_fields {buf rest : Bytes} {n seeder index begin length : UInt32} {kind : UInt8}
    (hbuf : buf = toBeBytes n ++ [kind] ++ toBeBytes seeder ++ toBeBytes index ++ toBeBytes begin
      ++ toBeBytes length ++ rest) :
    ¬ buf.length < 4 ∧ (buf[4]? : Option UInt8) = some kind ∧ readU32 buf 5 = .ok seeder ∧
      readU32 buf 9 = .ok index ∧ readU32 buf 13 = .ok begin ∧ readU32 buf 17 = .ok length := by
  refine ⟨by simp [hbuf], by simp [hbuf], ?_, ?_, ?_, ?_⟩
  · apply readU32_append (a := toBeBytes n ++ [kind]) (c := toBeBytes index ++ toBeBytes begin
      ++ toBeBytes length ++ rest) seeder _ (by simp)
    simp [hbuf]
  · apply readU32_append (a := toBeBytes n ++ [kind] ++ toBeBytes seeder)
      (c := toBeBytes begin ++ toBeBytes length ++ rest) index _ (by simp)
    simp [hbuf]
  · apply readU32_append (a := toBeBytes n ++ [kind] ++ toBeBytes seeder ++ toBeBytes index)
      (c := toBeBytes length ++ rest) begin _ (by simp)
    simp [hbuf]
  · exact readU32_append length hbuf (by simp)

namespace Message

variable {env : Env} {m : Message} {buf : Bytes}

/-- Decoding gives back the message that was encoded. -/
theorem decode_encode (h : m.encode env = .ok buf) : decode buf = .ok (some m) := by
  cases m with
  | request seeder index begin length hash =>
    have hbuf := (Except.ok.inj h).symm
    obtain ⟨hlen, hkind, h₅, h₉, h₁₃, h₁₇⟩ := read_fields hbuf
    have h₂₁ : readHash buf 21 = .ok hash := readHash_append hash hbuf (by simp)
    rw [decode, if_neg hlen, hkind]
    simp only [if_true, h₅, h₉, h₁₃, h₁₇, h₂₁, bind, Except.bind, pure, Except.pure]
  | piece index payload =>
    obtain ⟨length, -, h⟩ := except_bind_eq_ok.mp h
    have hbuf := (Except.ok.inj h).symm
    have hkind : (buf[4]? : Option UInt8) = some 7 := by simp [hbuf]
    have hend : buf.length = 9 + payload.length := by
      simp only [hbuf, List.length_append, length_toBeBytes, List.length_singleton]
    have h₅ : readU32 buf 5 = .ok index := readU32_append index hbuf (by simp)
    have h₉ : sliceRange buf 9 (9 + payload.length) = .ok payload := by
      rw [hbuf, ← List.append_nil (toBeBytes length ++ [7] ++ toBeBytes index ++ payload)]
      exact sliceRange_append (by simp) rfl
    rw [decode, if_neg (by omega), hkind]
    simp only [if_neg (show (7 : UInt8) ≠ 6 by decide), if_true, hend, h₅, h₉, bind, Except.bind,
      pure, Except.pure]
  | cancel seeder index begin length =>
    have hbuf := (Except.ok.inj h).symm
    rw [← List.append_nil (_ ++ toBeBytes length)] at hbuf
    obtain ⟨hlen, hkind, h₅, h₉, h₁₃, h₁₇⟩ := read_fields hbuf
    rw [decode, if_neg hlen, hkind]
    simp only [if_neg (show (8 : UInt8) ≠ 6 by decide), if_neg (show (8 : UInt8) ≠ 7 by decide),
      if_true, h₅, h₉, h₁₃, h₁₇, bind, Except.bind, pure, Except.pure]

/-! ### Encoded sizes -/

lemma encode_request (env : Env) (seeder index begin length : UInt32) (hash : Digest) :
    ∃ buf, (request seeder index begin length hash).encode env = .ok buf ∧ buf.length = 41 := by
  refine ⟨_, rfl, ?_⟩
  simp [hash.property]

lemma encode_cancel (env : Env) (seeder index begin length : UInt32) :
    ∃ buf, (cancel seeder index begin length).encode env = .ok buf ∧ buf.length = 21 := by
  refine ⟨_, rfl, ?_⟩
  simp

lemma encode_piece (env : Env) (index : UInt32) {payload : Bytes}
    (h : payload.length + 5 < 2 ^ 32) :
    ∃ buf, (piece index payload).encode env = .ok buf ∧ buf.length = payload.length + 9 := by
  have hlength : (5 : UInt32).toNat + (UInt32.ofNat payload.length).toNat < 2 ^ 32 := by
    rw [UInt32.toNat_ofNat_of_lt' (Nat.lt_of_le_of_lt (Nat.le_add_right _ 5) h), Nat.add_comm]
    exact h
  refine ⟨_, by rw [encode, addU32_of_lt env hlength]; rfl, ?_⟩
  simp only [List.length_append, length_toBeBytes, List.length_singleton]
  omega

end Message

end BearTorrent
