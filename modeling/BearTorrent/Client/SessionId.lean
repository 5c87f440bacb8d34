import BearTorrent.Lib.BigEndian
import BearTorrent.Lib.TextFormat
import BearTorrent.Server.Basic
import Mathlib.Data.Prod.Lex
import Mathlib.Data.Sym.Sym2

/-!
# Session ids

The id of a TURN session is a text made of the peer ids of its two parties, the smaller one first.
Numbers and separators alternate in it, so the peer ids can be read from it.
-/

namespace BearTorrent

open TextFormat

/-- A number as it is displayed. -/
def display (n : ℕ) : String := String.ofList (decimal n)

/-- An address as it is displayed. -/
def displayIpv4 (addr : UInt32) : String :=
  ".".intercalate ((BigEndian.toBytes 4 addr.toNat).map fun octet => display octet.toNat)

/-- A peer id as a string. -/
def peerToString (peer : PeerId) : String :=
  displayIpv4 peer.ipaddr ++ ":" ++ display peer.port.toNat ++ "-" ++
    displayIpv4 peer.privIpaddr ++ ":" ++ display peer.privPort.toNat

/-- The fields of a peer id, which are compared one after the other. -/
def PeerId.key (p : PeerId) : ℕ ×ₗ ℕ ×ₗ ℕ ×ₗ ℕ :=
  toLex (p.ipaddr.toNat, toLex (p.port.toNat, toLex (p.privIpaddr.toNat, p.privPort.toNat)))

/-- The id of the session of two peers. -/
def makeSessionId (a b : PeerId) : String :=
  let (first, second) := if a.key ≤ b.key then (a, b) else (b, a)
  peerToString first ++ "|" ++ peerToString second

/-! ### Reading the text -/

/-- The octets of an address, behind their separators. -/
def addressFields (lead : Char) (addr : UInt32) : List (Char × ℕ) :=
  List.zip [lead, '.', '.', '.'] ((BigEndian.toBytes 4 addr.toNat).map UInt8.toNat)

/-- The numbers of a peer id, behind their separators. -/
def peerFields (peer : PeerId) : List (Char × ℕ) :=
  addressFields '|' peer.ipaddr ++ (':', peer.port.toNat) ::
    (addressFields '-' peer.privIpaddr ++ [(':', peer.privPort.toNat)])

lemma addressFields_inj {lead : Char} {addr addr' : UInt32}
    (h : addressFields lead addr = addressFields lead addr') : addr = addr' := by
  have hoctets := congrArg (List.map Prod.snd) h
  rw [addressFields, addressFields, List.map_snd_zip (by simp),
    List.map_snd_zip (by simp)] at hoctets
  have hbytes := List.map_injective_iff.mpr (fun _ _ => UInt8.toNat_inj.mp) hoctets
  exact UInt32.toNat_inj.mp (BigEndian.toBytes_inj addr.toNat_lt addr'.toNat_lt hbytes)

lemma peerFields_inj {p q : PeerId} (h : peerFields p = peerFields q) : p = q := by
  obtain ⟨haddr, hrest⟩ := List.append_inj h rfl
  obtain ⟨hport, hrest⟩ := List.cons.inj hrest
  obtain ⟨hpriv, hlast⟩ := List.append_inj hrest rfl
  obtain ⟨hprivPort, -⟩ := List.cons.inj hlast
  obtain ⟨-, hport⟩ := Prod.mk.inj hport
  obtain ⟨-, hprivPort⟩ := Prod.mk.inj hprivPort
  rw [PeerId.mk.injEq]
  exact ⟨addressFields_inj haddr, UInt32.toNat_inj.mp hport, addressFields_inj hpriv,
    UInt32.toNat_inj.mp hprivPort⟩

/-- Behind a separator, an address is displayed as the text of its octets. -/
lemma fieldText_addressFields (lead : Char) (addr : UInt32) :
    fieldText (addressFields lead addr) = lead :: (displayIpv4 addr).toList := by
  change fieldText [(lead, _), ('.', _), ('.', _), ('.', _)] = _
  have hdisplay : displayIpv4 addr = display _ ++ "." ++ display _ ++ "." ++ display _ ++ "." ++
    display _ := rfl
  rw [hdisplay]
  simp [display, fieldText]

lemma fieldText_peerFields (p : PeerId) :
    fieldText (peerFields p) = '|' :: (peerToString p).toList := by
  rw [peerFields, fieldText_append, fieldText_addressFields, fieldText_cons, fieldText_append,
    fieldText_addressFields]
  simp [peerToString, display, fieldText]

/-- Two peer ids can be read from the text with one behind the other. -/
lemma peerToString_append_inj {p q p' q' : PeerId}
    (h : peerToString p ++ "|" ++ peerToString q = peerToString p' ++ "|" ++ peerToString q') :
    p = p' ∧ q = q' := by
  have htext : ∀ x y, fieldText (peerFields x ++ peerFields y) =
      '|' :: (peerToString x ++ "|" ++ peerToString y).toList := by
    intro x y
    rw [fieldText_append, fieldText_peerFields, fieldText_peerFields]
    simp
  have hfields : peerFields p ++ peerFields q = peerFields p' ++ peerFields q' := by
    refine fieldText_inj rfl ?_ (by rw [htext, htext, h])
    have hdigit : ∀ x, ∀ c ∈ (peerFields x).map Prod.fst, c.isDigit = false := by
      intro x
      change ∀ c ∈ ['|', '.', '.', '.', ':', '-', '.', '.', '.', ':'], _
      simp [Char.isDigit]
    intro field hfield
    rcases List.mem_append.mp hfield with hfield | hfield
    · exact hdigit p _ (List.mem_map_of_mem hfield)
    · exact hdigit q _ (List.mem_map_of_mem hfield)
  obtain ⟨hp, hq⟩ := List.append_inj hfields rfl
  exact ⟨peerFields_inj hp, peerFields_inj hq⟩

/-! ### Sessions and pairs of peers -/

lemma PeerId.key_injective : Function.Injective PeerId.key := by
  intro p q h
  simp only [PeerId.key, EmbeddingLike.apply_eq_iff_eq, Prod.mk.injEq, UInt32.toNat_inj] at h
  rw [PeerId.mk.injEq]
  exact h

/-- The order of the two peers does not matter. -/
lemma makeSessionId_comm (a b : PeerId) : makeSessionId a b = makeSessionId b a := by
  rcases lt_trichotomy a.key b.key with hlt | heq | hlt
  · rw [makeSessionId, makeSessionId, if_pos hlt.le, if_neg hlt.not_ge]
  · rw [PeerId.key_injective heq]
  · rw [makeSessionId, makeSessionId, if_neg hlt.not_ge, if_pos hlt.le]

/-- The two texts of a session id are those of its peers. -/
lemma exists_makeSessionId (a b : PeerId) :
    ∃ p q, makeSessionId a b = peerToString p ++ "|" ++ peerToString q ∧ s(p, q) = s(a, b) := by
  by_cases hle : a.key ≤ b.key
  · exact ⟨a, b, by rw [makeSessionId, if_pos hle], rfl⟩
  · exact ⟨b, a, by rw [makeSessionId, if_neg hle], Sym2.eq_swap⟩

/-- Two pairs of peers have the same session id exactly when they are the same unordered pair. -/
theorem makeSessionId_eq_iff (a b c d : PeerId) :
    makeSessionId a b = makeSessionId c d ↔ s(a, b) = s(c, d) := by
  constructor
  · intro h
    obtain ⟨p, q, hpq, hab⟩ := exists_makeSessionId a b
    obtain ⟨p', q', hpq', hcd⟩ := exists_makeSessionId c d
    rw [hpq, hpq'] at h
    obtain ⟨rfl, rfl⟩ := peerToString_append_inj h
    exact hab.symm.trans hcd
  · intro h
    rcases Sym2.eq_iff.mp h with ⟨rfl, rfl⟩ | ⟨rfl, rfl⟩
    · rfl
    · exact makeSessionId_comm _ _

example : makeSessionId ⟨0x7f000001, 80, 0xc0a80001, 9⟩ ⟨0x7f000001, 80, 0xc0a80001, 4⟩ =
    "127.0.0.1:80-192.168.0.1:4|127.0.0.1:80-192.168.0.1:9" := by decide +kernel

end BearTorrent
