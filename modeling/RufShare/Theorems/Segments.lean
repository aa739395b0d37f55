import RufShare.Lemmas.Receiver
import RufShare.Lemmas.Total

/-!
# A chunk as datagrams

`push_chunk_data` and `pull_chunk_data` cut a chunk into the same segments, each with its own count of the bytes that remain. What is
pushed is the range of the file and the file stays; what is pulled goes to the range and nowhere else, whatever arrives, and when the
pull succeeds the range is what the datagrams held, each cut to its segment.
-/

namespace RufShare

open Slice Resumption

/-- An open file: the mapping has the file's size, and the size is that of a file. -/
structure OpenFile (stream : MFile) : Prop where
  isOpen : stream.isOpen = true
  length : stream.buf.length = stream.size
  small : stream.size < 2 ^ 64

/-- The datagram a call pushes. -/
def pushedSegment : Event → Option Bytes
  | ⟨_, .send .dgram _ buf, _⟩ => some buf
  | _ => none

/-- What a call has got of a datagram. -/
def pulledSegment : Event → Option Bytes
  | ⟨_, .recv .dgram _ _ _, r⟩ => r.map (·.1)
  | _ => none

/-- The datagrams `incoming` may arrive as the calls of `tr` received them: a `recv` that does not fail takes the next one, and gets
as much of it as it asked for. -/
def Arrives : List Bytes → List Event → Prop
  | _, [] => True
  | incoming, ⟨_, .recv .dgram _ size _, some b⟩ :: tr =>
    ∃ d rest, incoming = d :: rest ∧ b.1 = d.take size ∧ Arrives rest tr
  | incoming, _ :: tr => Arrives incoming tr

/-- The datagrams cut to the lengths of the segments, one after the other. -/
def assemble (sizes : List Nat) (datagrams : List Bytes) : Bytes := (List.zipWith (fun n d => d.take n) sizes datagrams).flatten

namespace SegmentsAux

/-- The process with another file and cursor. -/
def withStream (s : Proc) (stream : MFile) : Proc :=
  { s with conf := { s.conf with filec := { s.conf.filec with mfile := stream } } }

variable {stream : MFile}

/-- The read that stays inside the file. -/
theorem mfread_of_fits (h : OpenFile stream) {n : Nat} (hfits : stream.pos + n ≤ stream.size) :
    mfread n 1 stream = (slice stream.buf stream.pos n, { stream with pos := stream.pos + n }) := by
  have hsmall := h.small
  have hspan : stream.span n 1 = n := by
    simp only [MFile.span]
    rw [Nat.mul_one, Nat.mod_eq_of_lt (by omega), sizeSub_of_le (by omega) hsmall]
    split <;> omega
  simp [mfread, h.isOpen, hspan]

theorem mfseek_of_lt (h : OpenFile stream) {pos : Nat} (hpos : pos < stream.size) :
    mfseek stream pos = (pos, { stream with pos := pos }) := by
  simp [mfseek, h.isOpen, hpos]

/-! ## Pushing -/

/-- The loop pushes the range at the cursor in pieces. -/
theorem after_pushSegments (sock : Sockfd) (timeout : Int) (rounds : Nat) : ∀ rsize s, rsize ≤ rounds → 0 < s.conf.segsize →
    OpenFile s.conf.filec.mfile → s.conf.filec.mfile.pos + rsize ≤ s.conf.filec.mfile.size →
    (pushSegments sock timeout rounds rsize s).After (fun tr s' stat =>
      (∃ pos, s' = withStream s { s.conf.filec.mfile with pos := pos }) ∧ ((∀ e ∈ tr, Succeeded e) → stat = .success) ∧
      (stat = .success → (tr.filterMap pushedSegment).map List.length = pieceSizes s.conf.segsize rsize ∧
        (tr.filterMap pushedSegment).flatten = slice s.conf.filec.mfile.buf s.conf.filec.mfile.pos rsize)) := by
  -- induction on the rounds: each pushes one piece
  induction rounds with
  | zero =>
    intro rsize s hle _ _ _
    obtain rfl : rsize = 0 := Nat.le_zero.1 hle
    exact after_pure ⟨⟨_, rfl⟩, fun _ => rfl, fun _ => by simp⟩
  | succ rounds ih =>
    intro rsize s hle hseg hfile hfits
    cases rsize with
    | zero => exact after_pure ⟨⟨_, rfl⟩, fun _ => rfl, fun _ => by simp⟩
    | succ rsize =>
      have hpieces := pieceSizes_of_pos hseg (Nat.succ_pos rsize)
      have hsize : 0 < min s.conf.segsize (rsize + 1) ∧ min s.conf.segsize (rsize + 1) ≤ rsize + 1 := by omega
      unfold pushSegments
      refine after_conf ?_
      rw [← Nat.min_def]
      generalize min s.conf.segsize (rsize + 1) = size at hpieces hsize ⊢
      have hread := mfread_of_fits hfile (n := size) (by omega)
      have hlen : (slice s.conf.filec.mfile.buf s.conf.filec.mfile.pos size).length = size :=
        length_slice_of_le (by rw [hfile.length]; omega)
      have hfill : fillSegbuf size (slice s.conf.filec.mfile.buf s.conf.filec.mfile.pos size) =
          slice s.conf.filec.mfile.buf s.conf.filec.mfile.pos size := by
        rw [fillSegbuf, hlen, Nat.sub_self, List.replicate_zero, List.append_nil]
      rw [hread]
      refine after_setConf (after_syscall fun polled => ?_)
      have hmoved : ∃ pos, withStream s { s.conf.filec.mfile with pos := s.conf.filec.mfile.pos + size } =
          withStream s { s.conf.filec.mfile with pos := pos } := ⟨_, rfl⟩
      cases polled with
      | error => exact after_pure ⟨hmoved, by simp [Succeeded, Call.Succeeds], by simp⟩
      | timeout => exact after_pure ⟨hmoved, by simp [Succeeded, Call.Succeeds], by simp⟩
      | ready hit =>
        cases hit with
        | false => exact after_ite (fun _ => after_pure ⟨hmoved, by simp [Succeeded, Call.Succeeds], by simp⟩) (fun h => absurd rfl h)
        | true =>
          refine after_ite (by simp) fun _ => ?_
          unfold pushUdpData
          rw [hfill]
          refine Tree.after_bind.2 (after_syscall fun sent => ?_)
          cases sent with
          | none =>
            exact after_pure (after_ite (fun _ => after_pure ⟨hmoved, by simp [Succeeded, Call.Succeeds], by simp⟩)
              (fun hne => absurd (by simp) hne))
          | some n =>
            refine after_ite (fun hlow => after_pure ?_) (fun _ => after_pure ?_)
            · refine after_ite (fun _ => after_pure ⟨hmoved, ?_, by simp⟩) (fun hne => absurd (by simp) hne)
              intro hall
              have hsent : Succeeded _ := hall _ (.tail _ (.head _))
              exact absurd hsent (Nat.not_le_of_lt hlow)
            · refine after_ite (fun hne => absurd rfl hne) fun _ => ?_
              refine (ih (rsize + 1 - size) (withStream s { s.conf.filec.mfile with pos := s.conf.filec.mfile.pos + size })
                (by omega) hseg ⟨hfile.isOpen, hfile.length, hfile.small⟩ ?_).mono ?_
              · change s.conf.filec.mfile.pos + size + (rsize + 1 - size) ≤ s.conf.filec.mfile.size
                omega
              rintro tr s' stat ⟨⟨pos, rfl⟩, hall, hdone⟩
              refine ⟨⟨pos, rfl⟩, fun h => hall fun e he => h e (.tail _ (.tail _ he)), fun hstat => ?_⟩
              obtain ⟨hsizes, hbytes⟩ := hdone hstat
              change ((_ :: tr.filterMap pushedSegment).map List.length = _) ∧ (_ :: tr.filterMap pushedSegment).flatten = _
              rw [List.map_cons, hsizes, List.flatten_cons, hbytes, hlen]
              refine ⟨hpieces.symm, ?_⟩
              have hsum : size + (rsize + 1 - size) = rsize + 1 := by omega
              exact (slice_append_slice s.conf.filec.mfile.buf s.conf.filec.mfile.pos size _).trans (by rw [hsum])

/-- `push_chunk_data` pushes the chunk in pieces and leaves the file. -/
theorem after_pushChunkData (sock : Sockfd) (chunk : ChunkContext) (timeout : Int) (s : Proc) (hseg : 0 < s.conf.segsize)
    (hfile : OpenFile s.conf.filec.mfile) (hstart : chunk.startPos < s.conf.filec.mfile.size)
    (hend : chunk.startPos + chunk.chunkSize ≤ s.conf.filec.mfile.size) :
    (pushChunkData sock chunk timeout s).After (fun tr s' stat =>
      s'.conf.filec.mfile.buf = s.conf.filec.mfile.buf ∧ ((∀ e ∈ tr, Succeeded e) → stat = .success) ∧
      (stat = .success → (tr.filterMap pushedSegment).map List.length = pieceSizes s.conf.segsize chunk.chunkSize ∧
        (tr.filterMap pushedSegment).flatten = slice s.conf.filec.mfile.buf chunk.startPos chunk.chunkSize)) := by
  unfold pushChunkData
  refine after_conf (after_syscall fun allocated => ?_)
  cases allocated with
  | false =>
    exact after_ite (fun _ => after_pure ⟨rfl, by simp [Succeeded, Call.Succeeds], by simp⟩) (fun h => absurd rfl h)
  | true =>
    refine after_ite (by simp) fun _ => ?_
    rw [mfseek_of_lt hfile hstart]
    refine after_setConf (after_ite (fun hne => absurd rfl hne) fun _ => ?_)
    refine (after_pushSegments sock timeout _ _ (withStream s { s.conf.filec.mfile with pos := chunk.startPos }) (Nat.le_refl _)
      hseg ⟨hfile.isOpen, hfile.length, hfile.small⟩ hend).mono ?_
    rintro tr s' stat ⟨⟨pos, rfl⟩, hall, hdone⟩
    exact ⟨rfl, fun h => hall fun e he => h e (.tail _ he), hdone⟩

/-! ## Pulling -/

/-- A datagram that arrives is cut to the segment and goes before what the rest arrives as. -/
theorem assemble_cons (n : Nat) (sizes : List Nat) (d : Bytes) (ds : List Bytes) :
    assemble (n :: sizes) (d :: ds) = d.take n ++ assemble sizes ds := rfl

/-- What has arrived of `incoming` when the segments of `sizes` are filled with `b`. -/
structure Filled (incoming : List Bytes) (sizes : List Nat) (b : Bytes) (used rest : List Bytes) : Prop where
  incoming : incoming = used ++ rest
  count : used.length = sizes.length
  long : ∀ p ∈ sizes.zip used, p.1 ≤ p.2.length
  bytes : b = assemble sizes used

/-- The loop writes the range at the cursor, as far as datagrams arrive. -/
theorem after_pullSegments (sock : Sockfd) (timeout : Int) (rounds : Nat) : ∀ rsize s, rsize ≤ rounds → 0 < s.conf.segsize →
    OpenFile s.conf.filec.mfile → s.conf.filec.mfile.pos + rsize ≤ s.conf.filec.mfile.size →
    (pullSegments sock timeout rounds rsize s).After (fun tr s' stat => ∃ b : Bytes, b.length ≤ rsize ∧
      s' = withStream s { s.conf.filec.mfile with
        buf := overwrite s.conf.filec.mfile.buf s.conf.filec.mfile.pos b
        pos := s.conf.filec.mfile.pos + b.length } ∧
      (stat = .success → b.length = rsize ∧
        (tr.filterMap pulledSegment).map List.length = pieceSizes s.conf.segsize rsize ∧
        ∀ incoming tr', Arrives incoming (tr ++ tr') →
          ∃ used rest, Filled incoming (pieceSizes s.conf.segsize rsize) b used rest)) := by
  -- induction on the rounds: each writes one piece
  induction rounds with
  | zero =>
    intro rsize s hle _ _ _
    obtain rfl : rsize = 0 := Nat.le_zero.1 hle
    exact after_pure ⟨[], Nat.le_refl _, by simp [withStream], fun _ => ⟨rfl, by simp, fun incoming _ _ =>
      ⟨[], incoming, rfl, by simp, by simp, by simp [assemble]⟩⟩⟩
  | succ rounds ih =>
    intro rsize s hle hseg hfile hfits
    cases rsize with
    | zero =>
      exact after_pure ⟨[], Nat.le_refl _, by simp [withStream], fun _ => ⟨rfl, by simp, fun incoming _ _ =>
        ⟨[], incoming, rfl, by simp, by simp, by simp [assemble]⟩⟩⟩
    | succ rsize =>
      have hpieces := pieceSizes_of_pos hseg (Nat.succ_pos rsize)
      have hsize : 0 < min s.conf.segsize (rsize + 1) ∧ min s.conf.segsize (rsize + 1) ≤ rsize + 1 := by omega
      -- an early return has written nothing
      have hnone : s = withStream s { s.conf.filec.mfile with
          buf := overwrite s.conf.filec.mfile.buf s.conf.filec.mfile.pos []
          pos := s.conf.filec.mfile.pos + ([] : Bytes).length } := by
        simp [withStream]
      unfold pullSegments
      refine after_conf ?_
      rw [← Nat.min_def]
      generalize min s.conf.segsize (rsize + 1) = size at hpieces hsize ⊢
      refine after_syscall fun polled => ?_
      cases polled with
      | error => exact after_pure ⟨[], Nat.zero_le _, hnone, by simp⟩
      | timeout => exact after_pure ⟨[], Nat.zero_le _, hnone, by simp⟩
      | ready hit =>
        refine after_ite (fun _ => after_pure ⟨[], Nat.zero_le _, hnone, by simp⟩) fun _ => ?_
        unfold pullUdpData
        refine Tree.after_bind.2 (after_syscall fun received => ?_)
        cases received with
        | none => exact after_ite (fun _ => after_pure ⟨[], Nat.zero_le _, hnone, by simp⟩) (fun hne => absurd (by simp) hne)
        | some b =>
          obtain ⟨b, hb⟩ := b
          refine after_ite (fun _ => after_pure ?_) (fun hlow => after_pure ?_)
          · exact after_ite (fun _ => after_pure ⟨[], Nat.zero_le _, hnone, by simp⟩) (fun hne => absurd (by simp) hne)
          · obtain rfl : b.length = size := Nat.le_antisymm hb (Nat.le_of_not_lt hlow)
            refine after_ite (fun hne => absurd rfl hne) fun _ => after_setConf ?_
            have hfit : s.conf.filec.mfile.pos + b.length ≤ s.conf.filec.mfile.size := by omega
            have hlen : s.conf.filec.mfile.pos + b.length ≤ s.conf.filec.mfile.buf.length := by
              rw [hfile.length]
              exact hfit
            have hwrite := @mfwrite_of_fits s.conf.filec.mfile b hfile.isOpen hfile.small hfit
            rw [hwrite]
            refine (ih (rsize + 1 - b.length) (withStream s { s.conf.filec.mfile with
              buf := overwrite s.conf.filec.mfile.buf s.conf.filec.mfile.pos b
              pos := s.conf.filec.mfile.pos + b.length }) (by omega) hseg
              ⟨hfile.isOpen, (length_overwrite hlen).trans hfile.length, hfile.small⟩ ?_).mono ?_
            · change s.conf.filec.mfile.pos + b.length + (rsize + 1 - b.length) ≤ s.conf.filec.mfile.size
              omega
            rintro tr s' stat ⟨b', hb', rfl, hdone⟩
            refine ⟨b ++ b', ?_, ?_, fun hstat => ?_⟩
            · rw [List.length_append]
              omega
            · have hboth := @overwrite_overwrite _ _ b b' _ hlen
              simp only [withStream, List.length_append, ← hboth, Nat.add_assoc]
            · obtain ⟨hfull, hsizes, harrives⟩ := hdone hstat
              refine ⟨?_, ?_, fun incoming tr' h => ?_⟩
              · rw [List.length_append]
                omega
              · change (b :: tr.filterMap pulledSegment).map List.length = _
                rw [List.map_cons, hsizes]
                exact hpieces.symm
              · obtain ⟨d, ds, rfl, hd, h⟩ := h
                obtain ⟨used, rest, hfilled⟩ := harrives ds tr' h
                refine ⟨d :: used, rest, ?_, ?_, ?_, ?_⟩
                · rw [hfilled.incoming, List.cons_append]
                · rw [hpieces, List.length_cons, List.length_cons]
                  exact congrArg Nat.succ hfilled.count
                · rw [hpieces, List.zip_cons_cons]
                  refine List.forall_mem_cons.2 ⟨?_, hfilled.long⟩
                  have hlong := congrArg List.length hd
                  rw [List.length_take] at hlong
                  change b.length ≤ d.length
                  omega
                · rw [hpieces, assemble_cons, ← hd]
                  exact congrArg (b ++ ·) hfilled.bytes

/-- `pull_chunk_data` writes the chunk as far as datagrams arrive, and nothing else. -/
theorem after_pullChunkData (sock : Sockfd) (chunk : ChunkContext) (timeout : Int) (s : Proc) (hseg : 0 < s.conf.segsize)
    (hfile : OpenFile s.conf.filec.mfile) (hstart : chunk.startPos < s.conf.filec.mfile.size)
    (hend : chunk.startPos + chunk.chunkSize ≤ s.conf.filec.mfile.size) :
    (pullChunkData sock chunk timeout s).After (fun tr s' stat => ∃ b : Bytes, b.length ≤ chunk.chunkSize ∧
      s'.conf.filec.mfile.buf = overwrite s.conf.filec.mfile.buf chunk.startPos b ∧
      (stat = .success → b.length = chunk.chunkSize ∧
        (tr.filterMap pulledSegment).map List.length = pieceSizes s.conf.segsize chunk.chunkSize ∧
        ∀ incoming, Arrives incoming tr →
          ∃ used rest, Filled incoming (pieceSizes s.conf.segsize chunk.chunkSize) b used rest)) := by
  have hnone : ∃ b : Bytes, b.length ≤ chunk.chunkSize ∧
      s.conf.filec.mfile.buf = overwrite s.conf.filec.mfile.buf chunk.startPos b ∧ b = [] := ⟨[], Nat.zero_le _, by simp, rfl⟩
  obtain ⟨b₀, hb₀, hbuf₀, -⟩ := hnone
  -- the loop and the sync, after calls that move no datagram
  have hrest (pre : List Event) (hpulled : pre.filterMap pulledSegment = [])
      (harrives : ∀ incoming tr, Arrives incoming (pre ++ tr) → Arrives incoming tr) :
      ((do
        let stat ← pullSegments sock timeout chunk.chunkSize chunk.chunkSize
        if stat ≠ .success then return stat
        let c ← conf
        let synced ← mfsync c.filec.mfile
        if !synced then return .emfsync
        return stat : Prog Status) (withStream s { s.conf.filec.mfile with pos := chunk.startPos })).After (fun tr s' stat =>
          ∃ b : Bytes, b.length ≤ chunk.chunkSize ∧ s'.conf.filec.mfile.buf = overwrite s.conf.filec.mfile.buf chunk.startPos b ∧
          (stat = .success → b.length = chunk.chunkSize ∧
            ((pre ++ tr).filterMap pulledSegment).map List.length = pieceSizes s.conf.segsize chunk.chunkSize ∧
            ∀ incoming, Arrives incoming (pre ++ tr) →
              ∃ used rest, Filled incoming (pieceSizes s.conf.segsize chunk.chunkSize) b used rest)) := by
    refine after_bind_of (after_pullSegments sock timeout _ _ (withStream s { s.conf.filec.mfile with pos := chunk.startPos })
      (Nat.le_refl _) hseg ⟨hfile.isOpen, hfile.length, hfile.small⟩ hend) ?_
    rintro tr s₁ stat ⟨b, hb, rfl, hdone⟩
    refine after_ite (fun hne => after_pure ⟨b, hb, rfl, fun h => absurd h hne⟩) fun hstat => after_conf ?_
    obtain ⟨hfull, hsizes, hfilled⟩ := hdone (Decidable.not_not.1 hstat)
    have hend (tr' : List Event) (htr' : tr'.filterMap pulledSegment = []) :
        ((pre ++ (tr ++ tr')).filterMap pulledSegment).map List.length = pieceSizes s.conf.segsize chunk.chunkSize ∧
        ∀ incoming, Arrives incoming (pre ++ (tr ++ tr')) →
          ∃ used rest, Filled incoming (pieceSizes s.conf.segsize chunk.chunkSize) b used rest := by
      refine ⟨?_, fun incoming h => hfilled incoming tr' (harrives incoming _ h)⟩
      rw [List.filterMap_append, List.filterMap_append, hpulled, htr', List.append_nil]
      exact hsizes
    unfold mfsync
    refine Tree.after_bind.2 (after_syscall fun page => ?_)
    cases page with
    | none => exact after_ite (fun _ => after_pure ⟨b, hb, rfl, nofun⟩) (fun h => absurd rfl h)
    | some page =>
      refine after_last fun ok => ?_
      exact after_ite (fun _ => after_pure ⟨b, hb, rfl, nofun⟩)
        (fun _ => after_pure ⟨b, hb, rfl, fun _ => ⟨hfull, hend _ rfl⟩⟩)
  unfold pullChunkData setSocketRcvlowsize
  refine after_conf (after_syscall fun allocated => ?_)
  refine after_ite (fun _ => after_pure ⟨b₀, hb₀, hbuf₀, nofun⟩) fun _ => ?_
  rw [mfseek_of_lt hfile hstart]
  refine after_setConf (after_ite (fun hne => absurd rfl hne) fun _ => Tree.after_bind.2 ?_)
  refine after_ite (fun _ => after_syscall fun ok => ?_) fun _ => after_pure ?_
  · refine after_ite (fun _ => after_pure ?_) fun _ => after_pure ?_
    · exact after_ite (fun _ => after_pure ⟨b₀, hb₀, hbuf₀, nofun⟩) (fun hne => absurd nofun hne)
    · exact after_ite (fun hne => absurd rfl hne) fun _ => hrest [_, _] rfl (fun _ _ h => h)
  · exact after_ite (fun hne => absurd rfl hne) fun _ => hrest [_] rfl (fun _ _ h => h)

/-- Datagrams that have the lengths of the segments are assembled whole. -/
theorem assemble_lengths (ds : List Bytes) : assemble (ds.map List.length) ds = ds.flatten := by
  induction ds with
  | nil => rfl
  | cons d ds ih => rw [List.map_cons, assemble_cons, List.take_length, ih, List.flatten_cons]

end SegmentsAux

/-- The process can push or pull the chunk: the file is open and the chunk begins and ends in it. -/
structure ReadyFor (segsize : Nat) (chunk : ChunkContext) (s : Proc) : Prop where
  segsize : s.conf.segsize = segsize
  file : OpenFile s.conf.filec.mfile
  start : chunk.startPos < s.conf.filec.mfile.size
  stop : chunk.startPos + chunk.chunkSize ≤ s.conf.filec.mfile.size

open SegmentsAux in
/-- A chunk as datagrams, for segments that are not empty. Pushing returns and leaves the file; when all calls succeed it succeeds, and
has then pushed `⌈chunk_size / segsize⌉` datagrams, none empty or longer than a segment, that make up the range of the file. Pulling
returns and changes no byte outside the range; when it succeeds it has taken as many datagrams, each at least as long as its segment,
and the range is what they hold when cut to the segments. When the datagrams of a push arrive first, the range is the one pushed. -/
theorem chunk_segmentation (segsize : Nat) (hseg : 1 ≤ segsize) (chunk : ChunkContext) :
    (∀ sock timeout s, ReadyFor segsize chunk s → (pushChunkData sock chunk timeout s).Complete ∧
      ∀ tr s' stat, Run (pushChunkData sock chunk timeout s) tr s' stat →
        s'.conf.filec.mfile.buf = s.conf.filec.mfile.buf ∧ ((∀ e ∈ tr, Succeeded e) → stat = .success) ∧
        (stat = .success → (tr.filterMap pushedSegment).length = (chunk.chunkSize + segsize - 1) / segsize ∧
          (∀ d ∈ tr.filterMap pushedSegment, d ≠ [] ∧ d.length ≤ segsize) ∧
          (tr.filterMap pushedSegment).flatten = slice s.conf.filec.mfile.buf chunk.startPos chunk.chunkSize)) ∧
    (∀ sock timeout s, ReadyFor segsize chunk s → (pullChunkData sock chunk timeout s).Complete ∧
      ∀ tr s' stat, Run (pullChunkData sock chunk timeout s) tr s' stat →
        s'.conf.filec.mfile.buf.length = s.conf.filec.mfile.buf.length ∧
        (∀ i, i < chunk.startPos ∨ chunk.startPos + chunk.chunkSize ≤ i →
          s'.conf.filec.mfile.buf[i]? = s.conf.filec.mfile.buf[i]?) ∧
        (stat = .success → (tr.filterMap pulledSegment).length = (chunk.chunkSize + segsize - 1) / segsize ∧
          ∀ incoming, Arrives incoming tr → ∃ used rest, incoming = used ++ rest ∧
            used.length = (chunk.chunkSize + segsize - 1) / segsize ∧
            (∀ p ∈ (pieceSizes segsize chunk.chunkSize).zip used, p.1 ≤ p.2.length) ∧
            slice s'.conf.filec.mfile.buf chunk.startPos chunk.chunkSize =
              assemble (pieceSizes segsize chunk.chunkSize) used)) ∧
    ∀ sock timeout sock' timeout' s tr s' r tr' r' later, ReadyFor segsize chunk s → ReadyFor segsize chunk r →
      Run (pushChunkData sock chunk timeout s) tr s' .success → Run (pullChunkData sock' chunk timeout' r) tr' r' .success →
      Arrives (tr.filterMap pushedSegment ++ later) tr' →
      slice r'.conf.filec.mfile.buf chunk.startPos chunk.chunkSize =
        slice s.conf.filec.mfile.buf chunk.startPos chunk.chunkSize := by
  have hpush (sock : Sockfd) (timeout : Int) {s : Proc} (hs : ReadyFor segsize chunk s) :=
    after_pushChunkData sock chunk timeout s (by rw [hs.segsize]; exact hseg) hs.file hs.start hs.stop
  have hpull (sock : Sockfd) (timeout : Int) {s : Proc} (hs : ReadyFor segsize chunk s) :=
    after_pullChunkData sock chunk timeout s (by rw [hs.segsize]; exact hseg) hs.file hs.start hs.stop
  have hcount := length_pieceSizes hseg chunk.chunkSize
  refine ⟨?_, ?_, ?_⟩
  · intro sock timeout s hs
    refine ⟨complete_pushChunkData sock timeout fun _ => by rw [hs.segsize]; exact hseg, fun tr s' stat hrun => ?_⟩
    obtain ⟨hframe, hall, hdone⟩ := Tree.after_iff.1 (hpush sock timeout hs) tr s' stat hrun
    refine ⟨hframe, hall, fun hstat => ?_⟩
    obtain ⟨hsizes, hbytes⟩ := hdone hstat
    rw [hs.segsize] at hsizes
    refine ⟨?_, fun d hd => ?_, hbytes⟩
    · rw [← hcount, ← hsizes, List.length_map]
    · have hmem : d.length ∈ pieceSizes segsize chunk.chunkSize := by
        rw [← hsizes]
        exact List.mem_map_of_mem hd
      obtain ⟨hpos, hle⟩ := bounds_of_mem_pieceSizes hseg hmem
      exact ⟨List.length_pos_iff.1 hpos, hle⟩
  · intro sock timeout s hs
    refine ⟨complete_pullChunkData sock timeout fun _ => by rw [hs.segsize]; exact hseg, fun tr s' stat hrun => ?_⟩
    obtain ⟨b, hb, hbuf, hdone⟩ := Tree.after_iff.1 (hpull sock timeout hs) tr s' stat hrun
    have hfits : chunk.startPos + b.length ≤ s.conf.filec.mfile.buf.length := by
      rw [hs.file.length]
      exact Nat.le_trans (Nat.add_le_add_left hb _) hs.stop
    rw [hbuf]
    refine ⟨length_overwrite hfits, fun i hi => ?_, fun hstat => ?_⟩
    · rw [getElem?_overwrite hfits, if_neg (by omega)]
    · obtain ⟨hfull, hsizes, hfilled⟩ := hdone hstat
      rw [hs.segsize] at hsizes hfilled
      refine ⟨by rw [← hcount, ← hsizes, List.length_map], fun incoming h => ?_⟩
      obtain ⟨used, rest, hused⟩ := hfilled incoming h
      refine ⟨used, rest, hused.incoming, hused.count.trans hcount, hused.long, ?_⟩
      rw [← hfull, slice_overwrite_self hfits, hfull]
      exact hused.bytes
  · intro sock timeout sock' timeout' s tr s' r tr' r' later hs hr hrun hrun' harrives
    obtain ⟨-, -, hpushed⟩ := Tree.after_iff.1 (hpush sock timeout hs) tr s' .success hrun
    obtain ⟨hsizes, hbytes⟩ := hpushed rfl
    obtain ⟨b, -, hbuf, hpulled⟩ := Tree.after_iff.1 (hpull sock' timeout' hr) tr' r' .success hrun'
    obtain ⟨hfull, -, hfilled⟩ := hpulled rfl
    obtain ⟨used, rest, hused⟩ := hfilled _ harrives
    have hfits : chunk.startPos + b.length ≤ r.conf.filec.mfile.buf.length := by
      rw [hr.file.length, hfull]
      exact hr.stop
    -- the datagrams used are those pushed, as there are as many
    have hsame : tr.filterMap pushedSegment = used := by
      refine (List.append_inj hused.incoming ?_).1
      rw [hused.count, hr.segsize, ← hs.segsize, ← hsizes, List.length_map]
    rw [← hbytes, hbuf, ← hfull, slice_overwrite_self hfits, hused.bytes, ← hsame, hr.segsize, ← hs.segsize, ← hsizes]
    exact assemble_lengths _

namespace SegmentsRun

/-- A party with a file of these bytes and segments of two bytes. -/
def party (buf : Bytes) : Proc :=
  { conf := { Sample.receiver with segsize := 2, filec := { Sample.receiver.filec with mfile :=
      { file := some (5 : FileId), isOpen := true, size := buf.length, pos := 0, buf := buf } } }, phase := .data }

/-- Every call succeeds, and the datagrams arrive in order. -/
def env (incoming : List Bytes) (s : Proc) : (c : Call) → c.Answer × List Bytes
  | .recv .dgram _ size _ => (some ⟨(incoming.headD []).take size, Sample.length_received incoming size⟩, incoming.tail)
  | c => ((Sample.env [] s c).1, incoming)

def chunk : ChunkContext := { startPos := 1, chunkSize := 3 }

def pushed : List Event × Option (Proc × Status) := play env [] (pushChunkData 0 chunk 1 (party [1, 2, 3, 4]))

def pulled : List Event × Option (Proc × Status) := play env [[2, 3], [4]] (pullChunkData 0 chunk 1 (party [0, 0, 0, 0]))

theorem ready (buf : Bytes) (hlen : buf.length = 4) : ReadyFor 2 chunk (party buf) where
  segsize := rfl
  file := ⟨rfl, rfl, by change buf.length < 2 ^ 64; omega⟩
  start := by change 1 < buf.length; omega
  stop := by change 1 + 3 ≤ buf.length; omega

theorem run_success {x : List Event × Option (Proc × Status)} (h : x.2.map Prod.snd = some .success) :
    ∃ s, x.2 = some (s, .success) := by
  obtain ⟨⟨s, stat⟩, hs, rfl⟩ := Option.map_eq_some_iff.1 h
  exact ⟨s, hs⟩

end SegmentsRun

open SegmentsRun in
/-- Three bytes in segments of two: the datagrams of the sender fill the receiver's range. -/
theorem chunk_segmentation_three : ∃ tr s' tr' r', Run (pushChunkData 0 chunk 1 (party [1, 2, 3, 4])) tr s' .success ∧
    Run (pullChunkData 0 chunk 1 (party [0, 0, 0, 0])) tr' r' .success ∧ tr.filterMap pushedSegment = [[2, 3], [4]] ∧
    slice r'.conf.filec.mfile.buf 1 3 = [2, 3, 4] := by
  obtain ⟨s', hpushed⟩ := run_success (x := pushed) (by decide +kernel)
  obtain ⟨r', hpulled⟩ := run_success (x := pulled) (by decide +kernel)
  have hsent : pushed.1.filterMap pushedSegment = [[2, 3], [4]] := by decide +kernel
  refine ⟨_, s', _, r', run_play env hpushed, run_play env hpulled, hsent, ?_⟩
  refine (chunk_segmentation 2 (by decide) chunk).2.2 0 1 0 1 _ _ s' _ _ r' [] (ready [1, 2, 3, 4] rfl) (ready [0, 0, 0, 0] rfl)
    (run_play env hpushed) (run_play env hpulled) ?_
  change Arrives (pushed.1.filterMap pushedSegment ++ []) _
  rw [hsent]
  exact ⟨[2, 3], [[4]], rfl, rfl, [4], [], rfl, rfl, trivial⟩

end RufShare
