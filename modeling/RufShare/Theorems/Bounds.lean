import RufShare.Lemmas.Receiver
import RufShare.Theorems.Tiling
import RufShare.Theorems.Verification

/-!
# The receiver's accesses to its file

Against any peer, every range of the file that `pull_transfer` writes or computes a checksum of lies inside the file. The ranges are
read off the calls of a run: the write follows a datagram that came whole, at the cursor, and the checksum of a chunk follows the
sync of the file. A path of the program may stop anywhere, so that accesses of transfers that never end count too.
-/

namespace RufShare

open Resumption Receiver

/-- The range of the file the program goes on to access after a call: `mfwrite` after a whole datagram, `calc_chunk_crc32` after
the sync at the end of `pull_chunk_data`. -/
def access : Event → Option ChunkContext
  | ⟨s, .recv .dgram _ size _, r⟩ =>
    r.bind (fun b => if size ≤ b.1.length
      then some { startPos := s.conf.filec.mfile.pos, chunkSize := s.conf.filec.mfile.span size 1 } else none)
  | ⟨s, .msync _ _, r⟩ => if r = true then some (chunkContext s.conf) else none
  | _ => none

/-- The acknowledgement `pull_handshake` pushes. -/
def offerAck : Event → Option UInt8
  | ⟨s, .send .stream _ buf, _⟩ => if s.phase = .handshake then some (convertRecvPacket (.ofBytes buf)).ack else none
  | _ => none

/-- The size of the file that `mfopen` maps. -/
def mappedSize : Event → Option Nat
  | ⟨_, .fstat _, r⟩ => r
  | _ => none

/-- The file that is mapped has the size `start_file_stream` was asked for. -/
def MapsWhole (e : Event) : Prop := ∀ size, mappedSize e = some size → size = e.state.conf.filec.size

/-- What an event accesses lies in the file, and in its mapping. -/
def AccessInside (e : Event) : Prop := ∀ range, access e = some range →
  range.stop ≤ e.state.conf.filec.size ∧ e.state.conf.filec.mfile.buf.length = e.state.conf.filec.size

namespace BoundsAux

variable {Γ : Libcrc} {v : View} {s : Proc}

/-- A write through the cursor never leaves the file when the cursor does not. -/
theorem pos_add_span_le {stream : MFile} {size nmemb : Nat} (hpos : stream.pos ≤ stream.size) (hsize : stream.size < 2 ^ 64) :
    stream.pos + stream.span size nmemb ≤ stream.size := by
  simp only [MFile.span]
  rw [sizeSub_of_le hpos hsize]
  split <;> omega

theorem Shares.mapped_conf {c : InitConfig} (h : Shares c s) : Mapped s.conf := by
  have := h.mapped
  rw [← h.core] at this
  exact ⟨this.isOpen, this.size, this.length, this.offered, this.pos⟩

/-- What a receiver that keeps its role accesses lies in its file. -/
theorem accessInside_of_guar {c : Call} (r : c.Answer) (hhold : hold v s) (hguar : (role Γ).guar v s c) : AccessInside ⟨s, c, r⟩ := by
  intro range hrange
  cases c with
  | recv ty fd size peek =>
    cases ty with
    | stream => cases hrange
    | dgram =>
      obtain ⟨b, _, hb⟩ := Option.bind_eq_some_iff.1 hrange
      split at hb
      · obtain rfl := Option.some.inj hb
        have hcollects : collects v s size := hguar
        cases hstage : v.stage with
        | data crc tries n =>
          simp only [collects, hstage] at hcollects
          simp only [hold, hstage] at hhold
          have hmapped := Shares.mapped_conf hhold.1
          have hinside := hcollects.2.2.2
          unfold ChunkInside at hinside
          have hsize : v.conf.filec.size = s.conf.filec.size := by
            rw [← hhold.1.core]
            rfl
          refine ⟨?_, hmapped.length⟩
          have hle := @pos_add_span_le s.conf.filec.mfile size 1 (by rw [hcollects.2.2.1, hmapped.size]; omega)
            (by rw [hmapped.size]; exact hmapped.size_lt)
          rw [hmapped.size] at hle
          exact hle
        | _ => simp only [collects, hstage] at hcollects
      · cases hb
  | msync offset size =>
    have hallows : allows v s (.msync offset size) := hguar
    obtain ⟨crc, tries, page, hstage, -⟩ := hallows
    simp only [hold, hstage] at hhold
    have hr : r = true ∧ chunkContext s.conf = range := by simpa [access] using hrange
    have hinside := hhold.2.2.1
    unfold ChunkInside at hinside
    have hmapped := Shares.mapped_conf hhold.1
    have hsize : v.conf.filec.size = s.conf.filec.size := by
      rw [← hhold.1.core]
      rfl
    rw [← hr.2, hhold.1.chunk_eq, ChunkContext.stop, ← hsize]
    exact ⟨hinside, by rw [hsize]; exact hmapped.length⟩
  | _ => cases hrange

/-- Acknowledging an offer and refusing it are told apart by the acknowledgement. -/
theorem bytes_of_offerAck {fd : Sockfd} {buf : Bytes} {r : Option Nat} (hstage : v.stage = .making) (hhold : hold v s)
    (hguar : (role Γ).guar v s (.send .stream fd buf)) (hack : offerAck ⟨s, .send .stream fd buf, r⟩ = some 1) :
    buf = (packRecvPacket 1 0 0).bytes := by
  have hsends : sends Γ v s buf := hguar
  simp only [sends, hstage] at hsends
  simp only [hold, hstage] at hhold
  rcases hsends with ⟨hbuf, -⟩ | hbuf
  · exact hbuf
  · have hone : some (convertRecvPacket (.ofBytes buf)).ack = some 1 := by
      rw [← hack, offerAck, if_pos hhold.phase]
    rw [hbuf] at hone
    exact absurd hone (by decide)

/-- The file is mapped whole: the receiver may rely on it. -/
theorem relies_of_mapsWhole {c : Call} {r : c.Answer} (hguar : (role Γ).guar v s c) (h : MapsWhole ⟨s, c, r⟩) :
    (role Γ).relies v s c r := by
  cases c with
  | fstat file =>
    cases r with
    | none => exact trivial
    | some size =>
      have hallows : allows v s (.fstat file) := hguar
      change v.length = some size
      rw [hallows.2, h size rfl]
  | _ => exact trivial

end BoundsAux

open BoundsAux in
/-- Whatever the peer sends and wherever the run stops: if the offer was acknowledged, every access to the file lies inside it. -/
theorem pullTransfer_accesses_inside (Γ : Libcrc) (garbage : SendArgs) (rounds : Nat) (s : Proc) {tr : List Event}
    {t : Tree Status} (hpath : Path (pullPhases Γ garbage rounds startData s) tr t)
    (hack : ∀ e ∈ tr, ∀ ack, offerAck e = some ack → ack = 1) (hmaps : ∀ e ∈ tr, MapsWhole e) :
    ∀ e ∈ tr, AccessInside e := by
  let v : View := { stage := .offer, live := true, length := none, conf := s.conf }
  have hsat : (pullPhases Γ garbage rounds startData s).Sat (role Γ).monitor v (Ends Reported True) :=
    sat_pullPhases opens_startData garbage rounds rfl rfl
  -- along the path the offer stays acknowledged, so the role is kept
  have hhistory := hsat.history (I := fun v tr => v.stage ≠ .refused ∧ ∀ e ∈ tr, AccessInside e)
    (P := fun e => (∀ ack, offerAck e = some ack → ack = 1) ∧ MapsWhole e) ?_ ⟨nofun, List.forall_mem_nil _⟩ hpath
    (fun e he => ⟨hack e he, hmaps e he⟩)
  · obtain ⟨v', hI, -⟩ := hhistory
    exact hI.2
  · rintro v tr s c r ⟨hstage, hall⟩ hhold hguar ⟨hack, hmaps⟩
    have hbound : (role Γ).free v = false := decide_eq_false hstage
    obtain ⟨-, hguar⟩ := hguar hbound
    have hhold := hhold hbound
    refine ⟨fun _ => relies_of_mapsWhole hguar hmaps, ?_, ?_⟩
    · have hnext : (role Γ).monitor.next v s c r = (role Γ).next v s c r := if_neg (by rw [hbound]; decide)
      rw [hnext]
      refine stage_next c r hstage ?_
      rintro fd buf rfl hmaking
      have hphase : s.phase = .handshake := by
        simp only [role, hold, hmaking] at hhold
        exact hhold.phase
      have hsome : offerAck ⟨s, .send .stream fd buf, r⟩ = some (convertRecvPacket (.ofBytes buf)).ack := if_pos hphase
      refine bytes_of_offerAck hmaking hhold hguar (r := r) ?_
      rw [hsome, hack _ hsome]
    · rw [List.forall_mem_append]
      exact ⟨hall, List.forall_mem_singleton.2 (accessInside_of_guar r hhold hguar)⟩

namespace BoundsRun

open Sample MismatchRun

/-- A receiver that gets a file of one byte in one chunk. -/
@[irreducible] def run : List Event × Option (Proc × Status) :=
  play env (stream 0) (pullPhases zero blank 2 startData ⟨receiver, .setup⟩)

theorem path_run {s : Proc} {stat : Status} (h : run.2 = some (s, stat)) :
    Path (pullPhases zero blank 2 startData ⟨receiver, .setup⟩) run.1 (.ret s stat) := by
  unfold run at h ⊢
  exact (run_play env h).path

theorem mapsWhole_run : ∀ e ∈ run.1, MapsWhole e := by
  have hmaps : ∀ e ∈ run.1, mappedSize e = none ∨ mappedSize e = some e.state.conf.filec.size := by decide +kernel
  intro e he size h
  rcases hmaps e he with hn | hn <;> rw [hn] at h
  · nomatch h
  · exact (Option.some.inj h).symm

end BoundsRun

open BoundsRun Sample in
/-- The run makes both accesses. -/
theorem pullTransfer_accesses_inside_one : ∃ tr t, Path (pullPhases zero blank 2 startData ⟨receiver, .setup⟩) tr t ∧
    (tr.filterMap access).length = 2 ∧ ∀ e ∈ tr, AccessInside e := by
  have hdone : run.2.map Prod.snd = some .success := by decide +kernel
  obtain ⟨⟨s, stat⟩, hout, -⟩ := Option.map_eq_some_iff.1 hdone
  have hack : ∀ e ∈ run.1, offerAck e = none ∨ offerAck e = some 1 := by decide +kernel
  refine ⟨run.1, _, path_run hout, by decide +kernel, pullTransfer_accesses_inside zero blank 2 _ (path_run hout) ?_ mapsWhole_run⟩
  intro e he ack h
  rcases hack e he with hn | hn <;> rw [hn] at h
  · nomatch h
  · exact (Option.some.inj h).symm

end RufShare
