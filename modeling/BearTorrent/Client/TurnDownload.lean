import BearTorrent.Client.HonestDownload
import BearTorrent.Client.Swarm
import BearTorrent.Client.TurnTransfer

/-!
# A download over TURN

The pieces that come back over the relay go to `reassemble_loop`. When all of them have been asked
for, the file that is built from what the relay delivers is the seeder's.
-/

namespace BearTorrent

open Patch Transition

/-! ### Deliveries to the loop -/

section Deliveries

variable {env : Env} {h : InfoHash} {content : Bytes} {seeder σ : Store} {msgs : List Message}

/-- The messages, delivered to the loop while `send_requests` runs. -/
def deliveries (msgs : List Message) : List DownloadEvent := msgs.map (.deliver · true)

/-- A loop that has been given every piece has built the file, whatever comes in afterwards. -/
lemma finished_of_covers (hd : Describes env h content) (hmax : content.length ≤ 2 ^ 32)
    (hn : 0 < h.pieces.length) (hseeder : (download seeder h.name).file = some content)
    (numConnections : ℕ) (hσ : Fresh σ h.name)
    (hcorrect : ∀ msg ∈ msgs, ∃ index piece, msg = .piece index piece ∧
      Correct env h seeder index piece)
    (hcov : Covers env h seeder (deliveries msgs)) :
    (runDownload env h numConnections σ (deliveries msgs)).loop = .finished ∧
      (download (runDownload env h numConnections σ (deliveries msgs)).store h.name).file
        = some content := by
  have hhonest : ∀ {msgs : List Message}, (∀ msg ∈ msgs, ∃ index piece,
      msg = .piece index piece ∧ Correct env h seeder index piece) →
      ∀ e ∈ deliveries msgs, e.Honest env h seeder := by
    intro msgs hcorrect e he
    obtain ⟨msg, hmsg, rfl⟩ := List.mem_map.mp he
    obtain ⟨index, piece, rfl, hpiece⟩ := hcorrect msg hmsg
    exact Or.inl hpiece
  induction msgs using List.reverseRecOn with
  | nil =>
    obtain ⟨_, _, _, hmem, -⟩ := hcov 0 hn
    cases hmem
  | append_singleton msgs msg ih =>
    have hsplit : deliveries (msgs ++ [msg]) = deliveries msgs ++ [.deliver msg true] :=
      List.map_append
    have hbefore : ∀ msg ∈ msgs, ∃ index piece, msg = .piece index piece ∧
        Correct env h seeder index piece := fun m hm => hcorrect m (List.mem_append_left _ hm)
    rw [hsplit] at hcov ⊢
    rw [runDownload, List.foldl_concat]
    by_cases hpast : Covers env h seeder (deliveries msgs)
    · obtain ⟨hloop, hfile⟩ := ih hbefore hpast
      rw [runDownload] at hloop hfile
      rw [DownloadState.step, hloop]
      exact ⟨hloop, hfile⟩
    · have hD := honestInv_run hd hmax hseeder numConnections hσ (hhonest hbefore) hpast
      have hlast := hhonest hcorrect (.deliver msg true) (List.mem_map_of_mem (by simp))
      exact (hD.step hd hmax hseeder hpast hlast).1 hcov

end Deliveries

/-! ### Answers to requests for a shared file -/

namespace TurnTransfer

variable {env : Env} {id : String} {fileMap : FileMap} {σ : Store} {h : InfoHash}
  {content : Bytes} {name : String} {sizes : ℕ → ℕ} {digest : Digest}

/-- The piece that a request is answered with. -/
def pieceFor (h : InfoHash) (content : Bytes) (r : PieceRequest) : Message :=
  .piece r.index (chunk h.pieceLength.toNat content r.index.toNat)

/-- Over TURN, a seeder that shares the file answers every request for one of its pieces. -/
lemma turnAnswers_shared (hh : h = InfoHash.compute env name content sizes)
    (hmax : content.length ≤ 2 ^ 32) (hshared : fileMap.lookup digest = some h)
    (hfile : σ.lookup (filePath name) = some content) {requests : List PieceRequest}
    (hrequests : ∀ r ∈ requests, r.hash = digest ∧ r.index.toNat < h.pieces.length) :
    turnAnswers env fileMap id σ requests = requests.map fun r => some (pieceFor h content r) := by
  induction requests with
  | nil => rfl
  | cons r requests ih =>
    obtain ⟨⟨hdigest, hindex⟩, hrest⟩ := List.forall_mem_cons.mp hrequests
    have hround : runOn (seedRound env fileMap id (r.packet id)) σ
        = (.ok (.sent ⟨id, some (.piece (chunk h.pieceLength.toNat content r.index.toNat)
            r.index)⟩), σ) := by
      rw [seedRound, PieceRequest.packet]
      simp only [Digest.ofBytes?_val, hdigest, hshared]
      rw [runOn_bind, runOn_attempt, runOn_readPieceFromFile_original hh hmax hfile hindex]
      rfl
    rw [turnAnswers, List.map_cons, startSeeding, hround, List.map_cons, List.map_cons, ← ih hrest]
    rfl

end TurnTransfer

end BearTorrent
