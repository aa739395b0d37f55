import RufShare.Theorems.Segments

/-!
# The sender's role

What `start_pusher` does from the handshake to the verification, seen from outside: the stage it is at and the numbers and the file
it holds. The sender keeps this role against any peer.
-/

namespace RufShare

open Resumption Slice

/-- The bytes of the SEND header a configuration gives, with a checksum. -/
def sendFrame (c : InitConfig) (crc : UInt16) : Bytes :=
  (sendArgs c crc).packet.bytes ++ packIntoInfostring (sendArgs c crc).info

/-- The FLOW header of the current chunk. -/
def flowPacket (Γ : Libcrc) (c : InitConfig) : FlowPacket :=
  packFlowPacket (UInt16.ofNat (chunkContext c).chunkSize) c.seq (calcChunkCrc32 Γ c.filec (chunkContext c))

namespace Sender

open Receiver (Shares)

/-- Where the sender is in a transfer. -/
inductive Stage where
  -- the handshake: the offer is to be pushed, its answer is awaited, or it was refused
  | offer | offered | declined
  -- the FLOW header of the chunk is to be pushed, or its answer is awaited, at the try `tries`
  | flow (tries : Nat)
  | flowed (tries : Nat)
  -- `out` bytes of the chunk have gone out at the try `tries`; when it is whole a verdict is awaited
  | data (tries out : Nat)
  -- the verification
  | final | finalSent
  | done (ack : Bool)
  deriving DecidableEq, Repr

/-- The sender from outside. `conf` is its configuration up to `core`. -/
structure View where
  stage : Stage
  live : Bool
  conf : InitConfig

/-- Before the answer to the offer the counter of the process has not been set. -/
def first (s : Proc) : Proc := { s with conf := { s.conf with seq := 1 } }

/-- The process with a number of chunks and the size of the last one stored. -/
def counted (s : Proc) (counts : UInt32 × UInt16) : Proc :=
  { conf := { s.conf with chcount := counts.1, pchsize := counts.2 }, phase := .handshake }

/-- The process `push_handshake` makes its offer from. -/
def offering (s : Proc) : Proc := counted s (calcChunkCount s.conf.filec.size s.conf.chsize.toNat)

/-- What holds of the sender at each stage. -/
def hold (v : View) (s : Proc) : Prop :=
  match v.stage with
  | .offer | .offered => Shares v.conf (first s) ∧ s.phase = .handshake
  | .declined => s.phase = .handshake
  | .flow _ => Shares v.conf s ∧ v.conf.seq ≤ v.conf.chcount
  | .flowed _ => Shares v.conf s ∧ v.conf.seq ≤ v.conf.chcount ∧ s.phase = .flow
  | .data _ out => Shares v.conf s ∧ v.conf.seq ≤ v.conf.chcount ∧ s.phase = .data ∧ out ≤ (chunkContext v.conf).chunkSize
  | .final => Shares v.conf s ∧ ¬v.conf.seq ≤ v.conf.chcount
  | .finalSent | .done _ => Shares v.conf s ∧ ¬v.conf.seq ≤ v.conf.chcount ∧ s.phase = .verification

/-- Between two chunks: the next one is announced, or all have gone. -/
def turn (c : InitConfig) : Stage := if c.seq ≤ c.chcount then .flow 0 else .final

section

variable (Γ : Libcrc)

/-- What the sender may push. A FLOW header is pushed `tf_trycount` times at most. -/
def sends (v : View) (s : Proc) (buf : Bytes) : Prop :=
  match v.stage with
  | .offer => buf = sendFrame v.conf 0
  | .flow tries => buf = (flowPacket Γ v.conf).bytes ∧ tries < v.conf.tfTrycount ∧ s.phase = .flow
  | .final => buf = sendFrame v.conf (calcFileCrc16 Γ v.conf.filec) ∧ s.phase = .verification
  | _ => False

/-- The view after a push. -/
def sent (v : View) : View :=
  match v.stage with
  | .offer => { v with stage := .offered }
  | .flow tries => { v with stage := .flowed tries }
  | .final => { v with stage := .finalSent }
  | _ => v

/-- How many bytes the sender reads of the control channel: it awaits RECV headers only. -/
def reads (v : View) (size : Nat) : Prop :=
  match v.stage with
  | .offered | .flowed _ | .finalSent => size = PacketType.size .recv
  | .data _ out => size = PacketType.size .recv ∧ out = (chunkContext v.conf).chunkSize ∧ ChunkInside v.conf
  | _ => False

/-- The view after a RECV header with this acknowledgement. -/
def answered (v : View) (ack : UInt8) : View :=
  match v.stage with
  | .offered => { v with stage := if ack = 0 then .declined else turn v.conf }
  | .flowed tries => { v with stage := if ack = 1 then .data 0 0 else .flow (tries + 1) }
  | .data tries _ =>
    if ack = 1
    then { v with stage := turn { v.conf with seq := v.conf.seq + 1 }, conf := { v.conf with seq := v.conf.seq + 1 } }
    else { v with stage := .data (tries + 1) 0 }
  | .finalSent => { v with stage := .done (ack ≠ 0) }
  | _ => v

/-- The view after a read. -/
def got (v : View) (b : Bytes) : View := answered v (convertRecvPacket (.ofBytes b)).ack

/-- The bytes of the next segment of the chunk. -/
def segment (c : InitConfig) (out : Nat) : Bytes :=
  slice c.filec.mfile.buf ((chunkContext c).startPos + out) (min (segsizeOf c) ((chunkContext c).chunkSize - out))

/-- The datagrams of the sender: the segments of the chunk in order, `tf_trycount` times at most. -/
def emits (v : View) (buf : Bytes) : Prop :=
  match v.stage with
  | .data tries out => out < (chunkContext v.conf).chunkSize ∧ buf = segment v.conf out ∧ tries < v.conf.tfTrycount ∧
      ChunkInside v.conf
  | _ => False

/-- The view after a datagram. -/
def emitted (v : View) (buf : Bytes) : View :=
  match v.stage with
  | .data tries out => { v with stage := .data tries (out + buf.length) }
  | _ => v

/-- The sender's role. -/
def role : Role View where
  free _ := false
  live v := v.live
  fail v := { v with live := false }
  hold := hold
  sends := sends Γ
  sent v _ _ := sent v
  expects _ := .recv
  reads := reads
  got := got
  emits v _ buf := emits v buf
  emitted := emitted
  collects _ _ _ := False
  collected v _ _ := v
  allows _ _ _ := True
  relies _ _ _ _ := True
  after v _ c r := if c.Succeeds r then v else { v with live := false }

/-- The ways a sender fails: a call failed, the offer or the file was refused, the tries are used up, the chunk starts past the end of
the file, or the addresses of the data socket are not valid. -/
def Stuck (v : View) : Prop :=
  v.live = false ∨ v.stage = .declined ∨ v.stage = .done false ∨ v.stage = .flow v.conf.tfTrycount ∨
    v.stage = .data v.conf.tfTrycount 0 ∨
    (∃ tries, v.stage = .data tries 0 ∧ v.conf.filec.size ≤ (chunkContext v.conf).startPos) ∨
    v.stage = turn v.conf ∧ checkAddrs v.conf.addrs ≠ .success

/-- How a phase of the sender ends: with `ok` in the view and the process, or as `Stuck` says. -/
def Ends (ok : View → Proc → Prop) (v : View) (s : Proc) (stat : Status) : Prop :=
  hold v s ∧ (stat = .success → v.live = true ∧ ok v s) ∧ (stat ≠ .success → Stuck v)

variable {Γ} {v : View} {s : Proc}

theorem at_of (hlive : v.live = true) (hhold : hold v s) : (role Γ).At v s := ⟨rfl, hlive, hhold⟩

theorem ends_ok {ok : View → Proc → Prop} (hhold : hold v s) (hlive : v.live = true) (hok : ok v s) :
    Ends ok v s .success := ⟨hhold, fun _ => ⟨hlive, hok⟩, fun h => absurd rfl h⟩

theorem ends_stuck {ok : View → Proc → Prop} {stat : Status} (hstat : stat ≠ .success) (hhold : hold v s)
    (h : Stuck v) : Ends ok v s stat := ⟨hhold, fun h => absurd h hstat, fun _ => h⟩

/-- A phase and what follows it when it succeeds. -/
theorem sat_check {x y : Prog Status} {ok : View → Proc → Prop} {Q : View → Proc → Status → Prop}
    (hx : (x s).Sat (role Γ).monitor v (Ends ok)) (hok : ∀ v s, v.live = true → ok v s → (y s).Sat (role Γ).monitor v Q)
    (hfail : ∀ v s stat, stat ≠ .success → hold v s → Stuck v → Q v s stat) :
    ((x >>= fun stat => if stat ≠ .success then pure stat else y) s).Sat (role Γ).monitor v Q := by
  refine sat_bind (hx.mono ?_)
  rintro v s stat ⟨hhold, hsuccess, hstuck⟩
  refine sat_ite (fun hne => hfail v s stat hne hhold (hstuck hne)) (fun heq => ?_)
  have hsuccess := hsuccess (Decidable.not_not.1 heq)
  exact hok v s hsuccess.1 hsuccess.2

/-- A RECV header is read, or a call fails. -/
theorem sat_pullRecvHeader {Q : View → Proc → Status × RecvPacket → Prop} {sock : Sockfd} {args : RecvPacket} {timeout : Int}
    (h : (role Γ).At v s) (hread : reads v (PacketType.size .recv))
    (hok : ∀ p : RecvPacket, Q (answered v p.ack) s (.success, p))
    (hfail : ∀ stat p, stat ≠ .success → Q { v with live := false } s (stat, p)) :
    (pullRecvHeader sock args timeout s).Sat (role Γ).monitor v Q := by
  unfold pullRecvHeader
  refine sat_bind (sat_pullPacket h rfl hread ?_ ?_)
  · intro b _
    exact sat_ite (fun hne => absurd rfl hne) (fun _ => hok _)
  · intro stat b hstat
    exact sat_ite (fun _ => hfail stat _ hstat) (fun heq => absurd hstat heq)

/-! ## The handshake -/

/-- After the handshake: the first chunk is to be announced. -/
def Begun (v : View) (s : Proc) : Prop := v.stage = turn v.conf ∧ Shares v.conf s ∧ s.phase = .handshake

theorem hold_turn (hstage : v.stage = turn v.conf) (h : Shares v.conf s) : hold v s := by
  unfold hold
  rw [hstage, turn]
  by_cases hseq : v.conf.seq ≤ v.conf.chcount
  · rw [if_pos hseq]
    exact ⟨h, hseq⟩
  · rw [if_neg hseq]
    exact ⟨h, hseq⟩

/-- The offer and the answer to it. -/
theorem sat_offer (hstage : v.stage = .offer) (hlive : v.live = true) (hshares : Shares v.conf (first s))
    (hphase : s.phase = .handshake) :
    ((do
      let stat ← pushSendHeader s.conf.cntlSock (sendArgs s.conf 0) s.conf.hstSend
      if stat ≠ .success then return stat
      let (stat, recv) ← pullRecvHeader s.conf.cntlSock emptyRecv s.conf.hstRecv
      if stat ≠ .success then return stat
      setConf (fun c => { c with seq := 1 })
      return if recv.ack = 0 then .zeroack else stat : Prog Status) s).Sat (role Γ).monitor v (Ends Begun) := by
  have hframe : sendFrame v.conf 0 = sendFrame s.conf 0 := by
    rw [← hshares.core]
    rfl
  have hat : (role Γ).At v s := at_of hlive (by simp only [hold, hstage]; exact ⟨hshares, hphase⟩)
  refine sat_bind (sat_pushHeader hat ?_ ?_ ?_)
  · change sends Γ v s (sendFrame s.conf 0)
    simp only [sends, hstage]
    exact hframe.symm
  · have hsent : sent v = { v with stage := .offered } := by simp only [sent, hstage]
    change Tree.Sat _ _ (sent v) _
    rw [hsent]
    have hat₁ : (role Γ).At { v with stage := .offered } s := at_of hlive ⟨hshares, hphase⟩
    refine sat_ite (fun hne => absurd rfl hne) fun _ => sat_bind (sat_pullRecvHeader hat₁ rfl ?_ ?_)
    · intro p
      refine sat_ite (fun hne => absurd rfl hne) fun _ => sat_setConf (sat_pure ?_)
      by_cases hack : p.ack = 0
      · rw [if_pos hack]
        have hdeclined : answered { v with stage := .offered } p.ack = { v with stage := .declined } := by
          simp only [answered, if_pos hack]
        rw [hdeclined]
        exact ends_stuck Status.noConfusion hphase (.inr (.inl rfl))
      · rw [if_neg hack]
        have hturn : answered { v with stage := .offered } p.ack = { v with stage := turn v.conf } := by
          simp only [answered, if_neg hack]
        rw [hturn]
        exact ends_ok (hold_turn rfl hshares) hlive ⟨rfl, hshares, hphase⟩
    · intro stat p hstat
      exact sat_ite (fun _ => ends_stuck hstat hat₁.hold (.inl rfl)) (fun heq => absurd hstat heq)
  · intro stat hstat
    exact sat_ite (fun _ => ends_stuck hstat hat.hold (.inl rfl)) (fun heq => absurd hstat heq)

theorem sat_pushHandshake (hstage : v.stage = .offer) (hlive : v.live = true) (hshares : Shares v.conf (first (offering s))) :
    (pushHandshake s).Sat (role Γ).monitor v (Ends Begun) := by
  unfold pushHandshake
  exact sat_enter (sat_setConf (sat_conf (sat_offer (s := offering s) hstage hlive hshares rfl)))

/-! ## A chunk -/

/-- Part of a chunk has gone out. -/
structure Emitting (v₀ : View) (tries out : Nat) (v : View) (s : Proc) : Prop where
  view : v = { v₀ with stage := .data tries out }
  live : v.live = true
  shares : Shares v.conf s
  seq : v.conf.seq ≤ v.conf.chcount
  phase : s.phase = .data
  le : out ≤ (chunkContext v.conf).chunkSize
  inside : ChunkInside v.conf
  pos : s.conf.filec.mfile.pos = (chunkContext v.conf).startPos + out
  left : tries < v.conf.tfTrycount

section Emitting

variable {v₀ : View} {tries out : Nat}

theorem Emitting.stage (h : Emitting v₀ tries out v s) : v.stage = .data tries out := by
  rw [h.view]

theorem Emitting.at (h : Emitting v₀ tries out v s) : (role Γ).At v s := by
  refine at_of h.live ?_
  simp only [hold, h.stage]
  exact ⟨h.shares, h.seq, h.phase, h.le⟩

theorem openFile_of_shares {c : InitConfig} (h : Shares c s) : OpenFile s.conf.filec.mfile := by
  have hopen := h.mapped.isOpen
  have hsize := h.mapped.size
  have hlength := h.mapped.length
  have hlt := h.mapped.size_lt
  rw [← h.core] at hopen hsize hlength hlt
  refine ⟨hopen, ?_, ?_⟩
  · exact hlength.trans hsize.symm
  · change s.conf.filec.mfile.size = s.conf.filec.size at hsize
    rw [hsize]
    exact hlt

theorem mfileSize_of_shares {c : InitConfig} (h : Shares c s) : s.conf.filec.mfile.size = c.filec.size := by
  rw [← h.mapped.size, ← h.core]
  rfl

/-- The view does not see the cursor. -/
theorem shares_seek {c : InitConfig} (h : Shares c s) (pos : Nat) :
    Shares c (SegmentsAux.withStream s { s.conf.filec.mfile with pos := pos }) :=
  ⟨h.core, h.mapped, h.counted, h.segsize⟩

/-- A segment goes out from where the cursor is. -/
theorem Emitting.emit (h : Emitting v₀ tries out v s) {n : Nat} (hn : out + n ≤ (chunkContext v.conf).chunkSize) {buf : Bytes}
    (hbuf : buf.length = n) : Emitting v₀ tries (out + n) (emitted v buf)
      (SegmentsAux.withStream s { s.conf.filec.mfile with pos := s.conf.filec.mfile.pos + n }) := by
  have hview : emitted v buf = { v with stage := .data tries (out + n) } := by
    simp only [emitted, h.stage, hbuf]
  rw [hview]
  refine ⟨by rw [h.view], h.live, shares_seek h.shares _, h.seq, h.phase, hn, h.inside, ?_, h.left⟩
  change s.conf.filec.mfile.pos + n = (chunkContext v.conf).startPos + (out + n)
  rw [h.pos]
  omega

end Emitting

/-- The loop over the segments sends the chunk. -/
theorem sat_pushSegments {Q : View → Proc → Status → Prop} {v₀ : View} {tries : Nat} (sock : Sockfd) (timeout : Int)
    (hok : ∀ v s, Emitting v₀ tries (chunkContext v₀.conf).chunkSize v s → Q v s .success)
    (hfail : ∀ v s stat, stat ≠ .success → v.live = false → hold v s → Q v s stat) (rounds : Nat) :
    ∀ rsize out v s, Emitting v₀ tries out v s → out + rsize = (chunkContext v₀.conf).chunkSize →
      (pushSegments sock timeout rounds rsize s).Sat (role Γ).monitor v Q := by
  -- induction on the rounds: each sends one segment
  induction rounds with
  | zero =>
    intro rsize out v s h hsum
    cases rsize with
    | zero => exact hok v s (by rw [← hsum]; exact h)
    | succ rsize => exact fun _ => h.at (Γ := Γ) |>.hold
  | succ rounds ih =>
    intro rsize out v s h hsum
    cases rsize with
    | zero => exact hok v s (by rw [← hsum]; exact h)
    | succ rsize =>
      have hchunk : chunkContext v.conf = chunkContext v₀.conf := by rw [h.view]
      have hseg : s.conf.segsize = segsizeOf v.conf := h.shares.segsize (by rw [h.phase]; decide)
      have hfile := openFile_of_shares h.shares
      have hinside := h.inside
      unfold ChunkInside at hinside
      have hsize : min (segsizeOf v.conf) ((chunkContext v.conf).chunkSize - out) = min s.conf.segsize (rsize + 1) := by
        rw [hseg, hchunk]
        omega
      have hle : min s.conf.segsize (rsize + 1) ≤ rsize + 1 := Nat.min_le_right _ _
      have hbuf : s.conf.filec.mfile.buf = v.conf.filec.mfile.buf := by
        rw [← h.shares.core]
        rfl
      unfold pushSegments
      refine sat_conf ?_
      rw [← Nat.min_def]
      generalize min s.conf.segsize (rsize + 1) = size at hsize hle ⊢
      have hfits : s.conf.filec.mfile.pos + size ≤ s.conf.filec.mfile.size := by
        rw [h.pos, mfileSize_of_shares h.shares, hchunk]
        rw [hchunk] at hinside
        omega
      have hlen : (slice s.conf.filec.mfile.buf s.conf.filec.mfile.pos size).length = size :=
        length_slice_of_le (by rw [hfile.length]; exact hfits)
      have hfill : fillSegbuf size (slice s.conf.filec.mfile.buf s.conf.filec.mfile.pos size) = segment v.conf out := by
        rw [fillSegbuf, hlen, Nat.sub_self, List.replicate_zero, List.append_nil, segment, hsize, h.pos, hbuf]
      rw [SegmentsAux.mfread_of_fits hfile hfits]
      have hmoved : (role Γ).At v (SegmentsAux.withStream s { s.conf.filec.mfile with pos := s.conf.filec.mfile.pos + size }) := by
        refine at_of h.live ?_
        simp only [hold, h.stage]
        exact ⟨shares_seek h.shares _, h.seq, h.phase, h.le⟩
      refine sat_setConf (sat_poll hmoved trivial (sat_ite (by simp) fun _ => sat_bind ?_) ?_)
      · unfold pushUdpData
        rw [hfill]
        have hemits : emits v (segment v.conf out) := by
          simp only [emits, h.stage]
          exact ⟨by rw [hchunk]; omega, trivial, h.left, h.inside⟩
        refine sat_call hmoved hemits fun sent _ => ?_
        cases sent with
        | none => exact sat_ite (fun _ => hfail _ _ _ (by simp) rfl hmoved.hold) (fun hne => absurd (by simp) hne)
        | some n =>
          refine sat_ite (fun hn => ?_) (fun hn => ?_)
          · have hnext : (role Γ).next v (SegmentsAux.withStream s { s.conf.filec.mfile with pos := s.conf.filec.mfile.pos + size })
                (.send .dgram sock (segment v.conf out)) (some n) = { v with live := false } := if_neg (Nat.not_le.2 hn)
            change Tree.Sat _ _ ((role Γ).next v (SegmentsAux.withStream s _) _ _) _
            rw [hnext]
            exact sat_ite (fun _ => hfail _ _ _ (by simp) rfl hmoved.hold) (fun hne => absurd (by simp) hne)
          · have hnext : (role Γ).next v (SegmentsAux.withStream s { s.conf.filec.mfile with pos := s.conf.filec.mfile.pos + size })
                (.send .dgram sock (segment v.conf out)) (some n) = emitted v (segment v.conf out) := if_pos (Nat.le_of_not_lt hn)
            change Tree.Sat _ _ ((role Γ).next v (SegmentsAux.withStream s _) _ _) _
            rw [hnext]
            refine sat_ite (fun hne => absurd rfl hne) fun _ => ?_
            refine ih _ _ _ _ (h.emit (n := size) ?_ ?_) (by omega)
            · rw [hchunk]
              omega
            · rw [← hfill, fillSegbuf, hlen, Nat.sub_self, List.replicate_zero, List.append_nil, hlen]
      · intro r hr
        cases r with
        | error => exact hfail _ _ _ (by simp) rfl hmoved.hold
        | timeout => exact hfail _ _ _ (by simp) rfl hmoved.hold
        | ready hit =>
          cases hit with
          | true => exact absurd rfl hr
          | false => exact sat_ite (fun _ => hfail _ _ _ (by simp) rfl hmoved.hold) (fun hne => absurd rfl hne)

/-- A try of the chunk is about to begin. -/
structure Trying (tries : Nat) (v : View) (s : Proc) : Prop where
  stage : v.stage = .data tries 0
  live : v.live = true
  shares : Shares v.conf s
  seq : v.conf.seq ≤ v.conf.chcount
  phase : s.phase = .data
  left : tries < v.conf.tfTrycount

theorem Trying.at {tries : Nat} (h : Trying tries v s) : (role Γ).At v s := by
  refine at_of h.live ?_
  simp only [hold, h.stage]
  exact ⟨h.shares, h.seq, h.phase, Nat.zero_le _⟩

theorem sat_pushChunkData {Q : View → Proc → Status → Prop} {tries : Nat} (sock : Sockfd) (timeout : Int) (h : Trying tries v s)
    (hok : ∀ v' s', Emitting v tries (chunkContext v.conf).chunkSize v' s' → Q v' s' .success)
    (hfail : ∀ v s stat, stat ≠ .success → hold v s → Stuck v → Q v s stat) :
    (pushChunkData sock (chunkContext v.conf) timeout s).Sat (role Γ).monitor v Q := by
  have hsize := mfileSize_of_shares h.shares
  have hfile := openFile_of_shares h.shares
  unfold pushChunkData
  refine sat_conf (sat_calloc h.at (sat_ite Bool.noConfusion fun _ => ?_) (sat_ite (fun _ => ?_) (fun hne => absurd rfl hne)))
  · by_cases hseek : (chunkContext v.conf).startPos < v.conf.filec.size
    · have hinside := chunkInside_of_seek h.shares.mapped h.shares.counted h.seq hseek
      rw [SegmentsAux.mfseek_of_lt hfile (by rw [hsize]; exact hseek)]
      refine sat_setConf (sat_ite (fun hne => absurd rfl hne) fun _ => ?_)
      refine sat_pushSegments sock timeout hok (fun v' s' stat hstat hdead hhold => hfail v' s' stat hstat hhold (.inl hdead)) _ _ 0 v
        (SegmentsAux.withStream s { s.conf.filec.mfile with pos := (chunkContext v.conf).startPos }) ?_ (Nat.zero_add _)
      refine ⟨?_, h.live, shares_seek h.shares _, h.seq, h.phase, Nat.zero_le _, hinside, rfl, h.left⟩
      rw [← h.stage]
    · have hmfseek : mfseek s.conf.filec.mfile (chunkContext v.conf).startPos = (0, s.conf.filec.mfile) := by
        simp [mfseek, hsize, hseek]
      rw [hmfseek]
      have hne : (chunkContext v.conf).startPos ≠ 0 := fun hzero => hseek (by rw [hzero]; exact h.shares.mapped.pos)
      refine sat_setConf (sat_ite (fun _ => ?_) (fun heq => absurd hne heq))
      exact hfail v _ _ Status.noConfusion (h.at (Γ := Γ)).hold (.inr (.inr (.inr (.inr (.inr (.inl ⟨tries, h.stage, Nat.le_of_not_lt hseek⟩))))))
  · exact hfail _ _ _ Status.noConfusion (h.at (Γ := Γ)).hold (.inl rfl)

/-! ## The transfer -/

/-- The process after the counter of the loop has moved. -/
def bump (s : Proc) : Proc := { s with conf := { s.conf with seq := s.conf.seq + 1 } }

/-- The chunk has been accepted; the counter of the process has not moved yet. -/
structure Accepted (t : Nat) (v : View) (s : Proc) : Prop where
  stage : v.stage = turn v.conf
  live : v.live = true
  shares : Shares v.conf (bump s)
  phase : s.phase = .data
  tries : v.conf.tfTrycount = t

/-- The loop over the tries of a chunk. -/
theorem sat_pushDataLoop {Q : View → Proc → Status × Nat → Prop} {t : Nat} (trycount : Nat)
    (hok : ∀ v s k, Accepted t v s → Q v s (.success, k + 1))
    (hout : ∀ v s, v.stage = .data v.conf.tfTrycount 0 → hold v s → Q v s (.success, 0))
    (hfail : ∀ v s stat k, stat ≠ .success → hold v s → Stuck v → Q v s (stat, k)) :
    ∀ tries v s, v.stage = .data tries 0 → v.live = true → Shares v.conf s → v.conf.seq ≤ v.conf.chcount →
      s.conf.segsize = segsizeOf v.conf → (trycount = 0 → s.phase = .data) → v.conf.tfTrycount = t → tries + trycount = t →
      (pushDataLoop (chunkContext v.conf) trycount s).Sat (role Γ).monitor v Q := by
  -- induction on the tries that are left
  induction trycount with
  | zero =>
    intro tries v s hstage _ hshares hseq _ hphase htry hsum
    rw [Nat.add_zero, ← htry] at hsum
    refine hout v s (by rw [← hsum]; exact hstage) ?_
    simp only [hold, hstage]
    exact ⟨hshares, hseq, hphase rfl, Nat.zero_le _⟩
  | succ trycount ih =>
    intro tries v s hstage hlive hshares hseq hseg _ htry hsum
    unfold pushDataLoop
    have htrying : Trying tries v { s with phase := .data } :=
      ⟨hstage, hlive, ⟨hshares.core, hshares.mapped, hshares.counted, fun _ => hseg⟩, hseq, rfl, by omega⟩
    refine sat_enter (sat_conf (sat_bind (sat_pushChunkData _ _ htrying ?_ ?_)))
    · intro v₁ s₁ h₁
      have hstage₁ := h₁.stage
      have hconf₁ : v₁.conf = v.conf := by rw [h₁.view]
      rw [← hconf₁] at hstage₁
      refine sat_ite (fun hne => absurd rfl hne) fun _ => sat_bind (sat_pullRecvHeader h₁.at ?_ ?_ ?_)
      · simp only [reads, hstage₁]
        exact ⟨trivial, trivial, h₁.inside⟩
      · intro p
        refine sat_ite (fun hne => absurd rfl hne) fun _ => ?_
        refine sat_ite (fun hack => sat_pure (hok _ _ _ ?_)) (fun hack => ?_)
        · simp only [answered, hstage₁, if_pos hack]
          exact ⟨rfl, h₁.live, h₁.shares.bump h₁.seq, h₁.phase, by rw [hconf₁, htry]⟩
        · have hnext : answered v₁ p.ack = { v₁ with stage := .data (tries + 1) 0 } := by
            simp only [answered, hstage₁, if_neg hack]
          rw [hnext, ← hconf₁]
          exact ih (tries + 1) { v₁ with stage := .data (tries + 1) 0 } s₁ rfl h₁.live h₁.shares h₁.seq
            (h₁.shares.segsize (by rw [h₁.phase]; decide)) (fun _ => h₁.phase) (by rw [← htry, ← hconf₁]) (by omega)
      · intro stat p hstat
        exact sat_ite (fun _ => hfail _ _ _ _ hstat (h₁.at (Γ := Γ)).hold (.inl rfl)) (fun heq => absurd hstat heq)
    · intro v₁ s₁ stat hstat hhold hstuck
      exact sat_ite (fun _ => hfail _ _ _ _ hstat hhold hstuck) (fun heq => absurd hstat heq)

/-- The FLOW header has been acknowledged. -/
structure Announced (c : InitConfig) (v : View) (s : Proc) : Prop where
  stage : v.stage = .data 0 0
  live : v.live = true
  conf : v.conf = c
  shares : Shares c s
  phase : s.phase = .flow
  pos : 0 < c.tfTrycount

/-- The loop over the tries of a FLOW header. -/
theorem sat_pushFlowLoop {Q : View → Proc → Status × Nat → Prop} {c : InitConfig} (hseq : c.seq ≤ c.chcount) (trycount : Nat)
    (hok : ∀ v s k, Announced c v s → Q v s (.success, k + 1))
    (hout : ∀ v s, v.stage = .flow v.conf.tfTrycount → hold v s → Q v s (.success, 0))
    (hfail : ∀ v s stat k, stat ≠ .success → hold v s → Stuck v → Q v s (stat, k)) :
    ∀ tries v s, v.stage = .flow tries → v.live = true → v.conf = c → Shares c s → s.conf.segsize = segsizeOf c →
      tries + trycount = c.tfTrycount → (pushFlowLoop (flowPacket Γ c) trycount s).Sat (role Γ).monitor v Q := by
  -- induction on the tries that are left
  induction trycount with
  | zero =>
    intro tries v s hstage _ hconf hshares _ hsum
    rw [Nat.add_zero, ← hconf] at hsum
    refine hout v s (by rw [← hsum]; exact hstage) ?_
    simp only [hold, hstage, hconf]
    exact ⟨hshares, hseq⟩
  | succ trycount ih =>
    intro tries v s hstage hlive hconf hshares hseg hsum
    unfold pushFlowLoop
    refine sat_enter (sat_conf ?_)
    generalize hs : ({ s with phase := .flow } : Proc) = s₁
    have hshares₁ : Shares c s₁ := by
      rw [← hs]
      exact ⟨hshares.core, hshares.mapped, hshares.counted, fun _ => hseg⟩
    have hphase₁ : s₁.phase = .flow := by rw [← hs]
    have hat : (role Γ).At v s₁ := by
      refine at_of hlive ?_
      simp only [hold, hstage, hconf]
      exact ⟨hshares₁, hseq⟩
    refine sat_bind (sat_pushHeader hat ?_ ?_ ?_)
    · change sends Γ v s₁ _
      simp only [sends, hstage, hconf]
      exact ⟨trivial, by omega, hphase₁⟩
    · have hsent : sent v = { v with stage := .flowed tries } := by simp only [sent, hstage]
      change Tree.Sat _ _ (sent v) _
      rw [hsent]
      have hat₁ : (role Γ).At { v with stage := .flowed tries } s₁ := by
        refine at_of hlive ?_
        simp only [hold, hconf]
        exact ⟨hshares₁, hseq, hphase₁⟩
      refine sat_ite (fun hne => absurd rfl hne) fun _ => sat_bind (sat_pullRecvHeader hat₁ rfl ?_ ?_)
      · intro p
        refine sat_ite (fun hne => absurd rfl hne) fun _ => ?_
        refine sat_ite (fun hack => sat_pure (hok _ _ _ ?_)) (fun hack => ?_)
        · simp only [answered, if_pos hack]
          exact ⟨rfl, hlive, hconf, hshares₁, hphase₁, by omega⟩
        · have hnext : answered { v with stage := .flowed tries } p.ack = { v with stage := .flow (tries + 1) } := by
            simp only [answered, if_neg hack]
          rw [hnext]
          exact ih (tries + 1) { v with stage := .flow (tries + 1) } s₁ rfl hlive hconf hshares₁
            (hshares₁.segsize (by rw [hphase₁]; decide)) (by omega)
      · intro stat p hstat
        exact sat_ite (fun _ => hfail _ _ _ _ hstat hat₁.hold (.inl rfl)) (fun heq => absurd hstat heq)
    · intro stat hstat
      exact sat_ite (fun _ => hfail _ _ _ _ hstat hat.hold (.inl rfl)) (fun heq => absurd hstat heq)

/-- All chunks have gone. -/
structure Finished (v : View) (s : Proc) : Prop where
  stage : v.stage = .final
  shares : Shares v.conf s
  seq : ¬v.conf.seq ≤ v.conf.chcount
  segsize : s.conf.segsize = segsizeOf v.conf

theorem sat_pushTransferLoop (rounds : Nat) :
    ∀ v s, v.stage = turn v.conf → v.live = true → Shares v.conf s → s.conf.segsize = segsizeOf v.conf →
      (pushTransferLoop Γ rounds v.conf.tfTrycount s).Sat (role Γ).monitor v (Ends Finished) := by
  -- induction on the rounds: one a chunk
  induction rounds with
  | zero =>
    intro v s hstage hlive hshares _
    exact fun _ => hold_turn hstage hshares
  | succ rounds ih =>
    intro v s hstage hlive hshares hseg
    unfold pushTransferLoop
    refine sat_conf ?_
    have hguard : s.conf.seq ≤ s.conf.chcount ↔ v.conf.seq ≤ v.conf.chcount := by
      rw [← hshares.core]
      rfl
    have htry : s.conf.tfTrycount = v.conf.tfTrycount := by
      rw [← hshares.core]
      rfl
    have hflow : packFlowPacket (UInt16.ofNat (chunkContext s.conf).chunkSize) s.conf.seq
        (calcChunkCrc32 Γ s.conf.filec (chunkContext s.conf)) = flowPacket Γ v.conf := by
      rw [← hshares.core]
      rfl
    have hhold := hold_turn hstage hshares
    refine sat_ite (fun hseq => ?_) (fun hseq => ?_)
    · rw [hguard] at hseq
      rw [turn, if_pos hseq] at hstage
      dsimp only
      rw [hflow, htry, hshares.chunk_eq]
      refine sat_bind (sat_pushFlowLoop hseq v.conf.tfTrycount ?_ ?_ ?_ 0 v s hstage hlive rfl hshares hseg (Nat.zero_add _))
      · intro v₁ s₁ k h₁
        refine sat_ite (fun hne => absurd rfl hne) fun _ => sat_ite Nat.noConfusion fun _ => sat_bind ?_
        have hseg₁ := h₁.shares.segsize (by rw [h₁.phase]; decide)
        have hpos := h₁.pos
        obtain ⟨stage₁, live₁, conf₁⟩ := v₁
        obtain rfl : conf₁ = v.conf := h₁.conf
        refine sat_pushDataLoop v.conf.tfTrycount ?_ ?_ ?_ 0 _ s₁ h₁.stage h₁.live h₁.shares hseq hseg₁ (fun hzero => by omega) rfl
          (Nat.zero_add _)
        · intro v₂ s₂ k h₂
          refine sat_ite (fun hne => absurd rfl hne) fun _ => sat_ite Nat.noConfusion fun _ => sat_setConf ?_
          rw [← h₂.tries]
          exact ih v₂ (bump s₂) h₂.stage h₂.live h₂.shares (h₂.shares.segsize (by rw [bump, h₂.phase]; decide))
        · intro v₂ s₂ hstage₂ hhold₂
          refine sat_ite (fun hne => absurd rfl hne) fun _ => sat_ite (fun _ => ?_) (fun hne => absurd rfl hne)
          exact ends_stuck Status.noConfusion hhold₂ (.inr (.inr (.inr (.inr (.inl hstage₂)))))
        · intro v₂ s₂ stat k hstat hhold₂ hstuck
          exact sat_ite (fun _ => ends_stuck hstat hhold₂ hstuck) (fun heq => absurd hstat heq)
      · intro v₁ s₁ hstage₁ hhold₁
        refine sat_ite (fun hne => absurd rfl hne) fun _ => sat_ite (fun _ => ?_) (fun hne => absurd rfl hne)
        exact ends_stuck Status.noConfusion hhold₁ (.inr (.inr (.inr (.inl hstage₁))))
      · intro v₁ s₁ stat k hstat hhold₁ hstuck
        exact sat_ite (fun _ => ends_stuck hstat hhold₁ hstuck) (fun heq => absurd hstat heq)
    · rw [hguard] at hseq
      rw [turn, if_neg hseq] at hstage
      exact sat_pure (ends_ok hhold hlive ⟨hstage, hshares, hseq, hseg⟩)

theorem sat_pushTransfer (rounds : Nat) (hstage : v.stage = turn v.conf) (hlive : v.live = true) (hshares : Shares v.conf s)
    (hseg : s.conf.segsize = segsizeOf v.conf) :
    (pushTransfer Γ rounds s).Sat (role Γ).monitor v (Ends Finished) := by
  have htry : s.conf.tfTrycount = v.conf.tfTrycount := by
    rw [← hshares.core]
    rfl
  unfold pushTransfer
  refine sat_enter (sat_conf ?_)
  rw [htry]
  exact sat_pushTransferLoop rounds v { s with phase := .flow } hstage hlive
    ⟨hshares.core, hshares.mapped, hshares.counted, fun _ => hseg⟩ hseg

/-! ## The verification -/

/-- The receiver has vouched for the file. -/
def Verified (v : View) (_ : Proc) : Prop := v.stage = .done true

theorem sat_pushVerification (h : Finished v s) (hlive : v.live = true) :
    (pushVerification Γ s).Sat (role Γ).monitor v (Ends Verified) := by
  unfold pushVerification
  refine sat_enter (sat_conf ?_)
  generalize hs : ({ s with phase := .verification } : Proc) = s₁
  have hshares : Shares v.conf s₁ := by
    rw [← hs]
    exact ⟨h.shares.core, h.shares.mapped, h.shares.counted, fun _ => h.segsize⟩
  have hphase : s₁.phase = .verification := by rw [← hs]
  have hframe : sendFrame s₁.conf (calcFileCrc16 Γ s₁.conf.filec) = sendFrame v.conf (calcFileCrc16 Γ v.conf.filec) := by
    rw [← hshares.core]
    rfl
  have hstage := h.stage
  have hat : (role Γ).At v s₁ := by
    refine at_of hlive ?_
    simp only [hold, hstage]
    exact ⟨hshares, h.seq⟩
  refine sat_bind (sat_pushHeader hat ?_ ?_ ?_)
  · change sends Γ v s₁ (sendFrame s₁.conf (calcFileCrc16 Γ s₁.conf.filec))
    simp only [sends, hstage]
    exact ⟨hframe, hphase⟩
  · have hsent : sent v = { v with stage := .finalSent } := by simp only [sent, hstage]
    change Tree.Sat _ _ (sent v) _
    rw [hsent]
    have hat₁ : (role Γ).At { v with stage := .finalSent } s₁ := at_of hlive ⟨hshares, h.seq, hphase⟩
    refine sat_ite (fun hne => absurd rfl hne) fun _ => sat_bind (sat_pullRecvHeader hat₁ rfl ?_ ?_)
    · intro p
      refine sat_ite (fun hne => absurd rfl hne) fun _ => sat_pure ?_
      have hdone : answered { v with stage := .finalSent } p.ack = { v with stage := .done (p.ack ≠ 0) } := rfl
      rw [hdone]
      by_cases hack : p.ack = 0
      · rw [if_pos hack]
        refine ends_stuck Status.noConfusion ⟨hshares, h.seq, hphase⟩ (.inr (.inr (.inl ?_)))
        simp [hack]
      · rw [if_neg hack]
        refine ends_ok ⟨hshares, h.seq, hphase⟩ hlive ?_
        simp [Verified, hack]
    · intro stat p hstat
      exact sat_ite (fun _ => ends_stuck hstat hat₁.hold (.inl rfl)) (fun heq => absurd hstat heq)
  · intro stat hstat
    exact sat_ite (fun _ => ends_stuck hstat hat.hold (.inl rfl)) (fun heq => absurd hstat heq)

/-! ## All phases -/

theorem checkAddrs_valid {addrs : CntlAddrs} (h : checkAddrs addrs = .success) :
    (inetPton addrs.localIp).isSome ∧ (inetPton addrs.remoteIp).isSome := by
  unfold checkAddrs checkIpv4Format at h
  cases hlocal : (inetPton addrs.localIp).isSome with
  | false =>
    rw [hlocal] at h
    cases h
  | true =>
    rw [hlocal] at h
    cases hremote : (inetPton addrs.remoteIp).isSome with
    | false =>
      rw [hremote] at h
      cases h
    | true => exact ⟨rfl, rfl⟩

/-- The data socket is opened, or the addresses are not valid, or a call fails. -/
theorem sat_startData (hbegun : Begun v s) (hlive : v.live = true) : (startData s).Sat (role Γ).monitor v (Ends Begun) := by
  obtain ⟨hstage, hshares, hphase⟩ := hbegun
  have hhold := hold_turn hstage hshares
  have haddrs : s.conf.addrs = v.conf.addrs := by
    rw [← hshares.core]
    rfl
  -- the data socket is not part of the view
  have hsock (sock : Sockfd) : Shares v.conf { s with conf := { s.conf with dataSock := sock } } :=
    ⟨hshares.core, hshares.mapped, hshares.counted, hshares.segsize⟩
  unfold startData
  refine sat_conf (sat_ite (fun hne => ?_) fun hvalid => sat_bind (sat_openUdpSocket (at_of hlive hhold) ?_ ?_ ?_ ?_ ?_))
  · rw [haddrs] at hne ⊢
    exact sat_pure (ends_stuck hne hhold (.inr (.inr (.inr (.inr (.inr (.inr ⟨hstage, hne⟩)))))))
  · rintro (_ | _) hc <;> trivial
  · rintro (_ | _) r hc <;> first | rfl | exact hc.elim
  · intro sock
    exact sat_setConf (sat_pure (ends_ok (hold_turn hstage (hsock sock)) hlive ⟨hstage, hsock sock, hphase⟩))
  · intro stat _ hrefused
    obtain ⟨hlocal, hremote⟩ := checkAddrs_valid (Decidable.not_not.1 hvalid)
    rcases hrefused with hrefused | hrefused
    · rw [hrefused] at hlocal
      exact absurd hlocal Bool.false_ne_true
    · rw [hrefused] at hremote
      exact absurd hremote Bool.false_ne_true
  · intro stat sock hstat
    exact sat_setConf (sat_pure (ends_stuck hstat (hold_turn (v := { v with live := false }) hstage (hsock sock)) (.inl rfl)))

/-- The sender keeps its role against any peer. -/
theorem sat_pushPhases (rounds : Nat) (hstage : v.stage = .offer) (hlive : v.live = true)
    (hshares : Shares v.conf (first (offering s))) :
    (pushPhases Γ rounds startData s).Sat (role Γ).monitor v (Ends Verified) := by
  unfold pushPhases
  refine sat_check (sat_pushHandshake hstage hlive hshares) ?_ (fun v s stat hstat hhold h => ends_stuck hstat hhold h)
  intro v s hlive hbegun
  refine sat_check (sat_startData hbegun hlive) ?_ (fun v s stat hstat hhold h => ends_stuck hstat hhold h)
  rintro v s hlive ⟨hstage, hshares, _⟩
  have hsegsize : calcSegmentSize (if s.conf.chsize ≠ 0 then s.conf.chsize.toNat else s.conf.pchsize.toNat) = segsizeOf v.conf := by
    rw [← hshares.core]
    rfl
  unfold setSegsize
  refine sat_setConf (sat_check (sat_pushTransfer rounds hstage hlive
    ⟨hshares.core, hshares.mapped, hshares.counted, fun _ => hsegsize⟩ hsegsize) ?_
    (fun v s stat hstat hhold h => ends_stuck hstat hhold h))
  intro v s hlive hfinished
  exact sat_pushVerification hfinished hlive

/-! ## The file stays -/

/-- A call moves nothing of the configuration but the counter. -/
theorem conf_next (v : View) (s : Proc) (c : Call) (r : c.Answer) :
    ({ ((role Γ).next v s c r).conf with seq := 1 } : InitConfig) = { v.conf with seq := 1 } := by
  have hafter : ((role Γ).after v s c r).conf = v.conf := by
    change (if c.Succeeds r then v else { v with live := false }).conf = v.conf
    split <;> rfl
  refine (role Γ).next_cases (p := fun v' => ({ v'.conf with seq := 1 } : InitConfig) = { v.conf with seq := 1 }) c r rfl rfl ?_ ?_ ?_ ?_ ?_
  · intro _ _ _
    change ({ (sent v).conf with seq := 1 } : InitConfig) = _
    unfold sent
    split <;> rfl
  · intro _ buf _
    change ({ (emitted v buf).conf with seq := 1 } : InitConfig) = _
    unfold emitted
    split <;> rfl
  · intro _ _ b _ _
    change ({ (got v b).conf with seq := 1 } : InitConfig) = _
    unfold got answered
    split
    case h_3 => split <;> rfl
    all_goals rfl
  · intro _ _ _ _ _ _
    rfl
  · exact congrArg (fun c : InitConfig => ({ c with seq := 1 } : InitConfig)) hafter

end

end Sender

end RufShare
