import RufShare.Lemmas.Role
import RufShare.Lemmas.Chunks

/-!
# The receiver's role

What `start_puller` does from the handshake to the verification, seen from outside: the stage it is at, and the numbers and the file
it holds. The receiver keeps this role against any peer; the only thing assumed of the system is that a file has the length
`ftruncate` gave it. Once the receiver has refused an offer nothing is asked of it.
-/

namespace RufShare

open Resumption Slice

/-- A configuration without what the receiver and the sender change between the calls that matter: the data socket, the segment
size and the cursor. -/
def core (c : InitConfig) : InitConfig :=
  { c with dataSock := 0, segsize := 0, filec := { c.filec with mfile := { c.filec.mfile with pos := 0 } } }

/-- A configuration with other bytes in the file. -/
def withBuf (c : InitConfig) (buf : Bytes) : InitConfig :=
  { c with filec := { c.filec with mfile := { c.filec.mfile with buf := buf } } }

/-- The write that follows a datagram that fits. -/
theorem mfwrite_of_fits {stream : MFile} {b : Bytes} (hopen : stream.isOpen = true) (hsize : stream.size < 2 ^ 64)
    (hfits : stream.pos + b.length ≤ stream.size) :
    mfwrite b b.length 1 stream = { stream with buf := overwrite stream.buf stream.pos b, pos := stream.pos + b.length } := by
  have hspan : stream.span b.length 1 = b.length := by
    simp only [MFile.span]
    rw [Nat.mul_one, Nat.mod_eq_of_lt (by omega), sizeSub_of_le (by omega) hsize]
    split <;> omega
  simp [mfwrite, hopen, hspan]

namespace Receiver

/-- Where the receiver is in a transfer. -/
inductive Stage where
  -- the handshake: the packet of the SEND header, its infostring, the file
  | offer | offerInfo | making | refused
  -- the transfer: a FLOW header is awaited, is to be answered, or does not fit
  | flow
  | answer (crc : UInt32)
  | reject
  -- `got` bytes of the chunk have come at the try `tries`; they are synced by pages of `page` bytes; a verdict is due
  | data (crc : UInt32) (tries got : Nat)
  | sync (crc : UInt32) (tries page : Nat)
  | verdict (crc : UInt32) (tries : Nat)
  -- the verification
  | final
  | finalInfo (crc : UInt16)
  | report (crc : UInt16)
  | done (ack : Bool)
  deriving DecidableEq, Repr

/-- The receiver from outside. `conf` is its configuration up to `core`, and `length` the length `ftruncate` gave its file. -/
structure View where
  stage : Stage
  live : Bool
  length : Option Nat
  conf : InitConfig

/-- The receiver's configuration is the one of the view. -/
structure Shares (c : InitConfig) (s : Proc) : Prop where
  core : core s.conf = c
  mapped : Mapped c
  counted : Counted c
  segsize : s.phase ≠ .handshake → s.conf.segsize = segsizeOf c

/-- What `pull_handshake` has stored when it makes the file. -/
structure Stored (c : InitConfig) (s : Proc) : Prop where
  chsize : s.conf.chsize = c.chsize
  pchsize : s.conf.pchsize = c.pchsize
  chcount : s.conf.chcount = c.chcount
  size : s.conf.filec.size = calcFileSize c.chcount c.chsize c.pchsize
  phase : s.phase = .handshake

/-- What holds of the receiver at each stage. -/
def hold (v : View) (s : Proc) : Prop :=
  match v.stage with
  | .offer | .offerInfo | .refused => True
  | .making => Stored v.conf s
  | .flow => Shares v.conf s ∧ v.conf.seq ≤ v.conf.chcount
  | .answer _ | .reject => Shares v.conf s ∧ v.conf.seq ≤ v.conf.chcount ∧ s.phase = .flow
  | .data _ _ got => Shares v.conf s ∧ v.conf.seq ≤ v.conf.chcount ∧ got ≤ (chunkContext v.conf).chunkSize
  | .sync _ _ _ | .verdict _ _ => Shares v.conf s ∧ v.conf.seq ≤ v.conf.chcount ∧ ChunkInside v.conf ∧ s.phase = .data
  | .final | .finalInfo _ | .report _ | .done _ => Shares v.conf s ∧ ¬v.conf.seq ≤ v.conf.chcount

/-- Between two chunks: the next one is awaited, or all have come. -/
def turn (c : InitConfig) : Stage := if c.seq ≤ c.chcount then .flow else .final

section

variable (Γ : Libcrc)

/-- The checksum of the chunk as it is in the file. -/
def chunkCrc (v : View) : UInt32 := calcChunkCrc32 Γ v.conf.filec (chunkContext v.conf)

/-- What the receiver may push. -/
def sends (v : View) (s : Proc) (buf : Bytes) : Prop :=
  match v.stage with
  | .making => buf = (packRecvPacket 1 0 0).bytes ∧ Mapped s.conf ∨ buf = (packRecvPacket 0 0 0).bytes
  | .answer _ => buf = (packRecvPacket 1 0 v.conf.seq).bytes
  | .reject => buf = (packRecvPacket 0 0 v.conf.seq).bytes
  | .verdict crc _ => buf = (packRecvPacket (if crc = chunkCrc Γ v then 1 else 0) 0 v.conf.seq).bytes
  | .report crc => buf = (packRecvPacket (if crc = calcFileCrc16 Γ v.conf.filec then 1 else 0) 0 v.conf.seq).bytes
  | _ => False

/-- The view after a push. -/
def sent (v : View) (s : Proc) (buf : Bytes) : View :=
  match v.stage with
  | .making =>
    if buf = (packRecvPacket 1 0 0).bytes
    then { v with stage := turn { s.conf with seq := 1 }, conf := core { s.conf with seq := 1 } }
    else { v with stage := .refused }
  | .answer crc => { v with stage := .data crc 0 0 }
  | .verdict crc tries =>
    if crc = chunkCrc Γ v
    then { v with stage := turn { v.conf with seq := v.conf.seq + 1 }, conf := { v.conf with seq := v.conf.seq + 1 } }
    else { v with stage := .data crc (tries + 1) 0 }
  | .report crc => { v with stage := .done (crc = calcFileCrc16 Γ v.conf.filec) }
  | _ => v

/-- The type of the header awaited. -/
def expects (v : View) : PacketType :=
  match v.stage with
  | .flow => .flow
  | _ => .send

/-- How many bytes the receiver reads of the control channel. -/
def reads (v : View) (size : Nat) : Prop :=
  match v.stage with
  | .offer | .final => size = PacketType.size .send
  | .offerInfo | .finalInfo _ => size = infostrSize
  | .flow => size = PacketType.size .flow
  | _ => False

/-- The view after a read. -/
def got (v : View) (b : Bytes) : View :=
  match v.stage with
  | .offer =>
    let p := convertSendPacket (.ofBytes b)
    { v with stage := .offerInfo,
             conf := { v.conf with chsize := p.chunkSize, pchsize := p.partialChunkSize, chcount := p.chunkCount } }
  | .offerInfo => { v with stage := .making }
  | .flow =>
    let p := convertFlowPacket (.ofBytes b)
    { v with stage := if matchFlow v.conf p then .answer p.crc else .reject }
  | .final => { v with stage := .finalInfo (convertSendPacket (.ofBytes b)).crc }
  | .finalInfo crc => { v with stage := .report crc }
  | _ => v

/-- How many bytes of a datagram the receiver takes, and where the cursor is then. -/
def collects (v : View) (s : Proc) (size : Nat) : Prop :=
  match v.stage with
  | .data _ _ got => got < (chunkContext v.conf).chunkSize ∧ size = min (segsizeOf v.conf) ((chunkContext v.conf).chunkSize - got) ∧
      s.conf.filec.mfile.pos = (chunkContext v.conf).startPos + got ∧ ChunkInside v.conf
  | _ => False

/-- The view after a datagram. -/
def collected (v : View) (b : Bytes) : View :=
  match v.stage with
  | .data crc tries got =>
    { v with stage := .data crc tries (got + b.length),
             conf := withBuf v.conf (overwrite v.conf.filec.mfile.buf ((chunkContext v.conf).startPos + got) b) }
  | _ => v

/-- The other calls. A file is given its length before it is mapped, and synced from the page its cursor is in. -/
def allows (v : View) (s : Proc) (c : Call) : Prop :=
  match c with
  | .ftruncate _ size => v.stage = .making ∧ size = s.conf.filec.size
  | .fstat _ => v.stage = .making ∧ v.length = some s.conf.filec.size
  | .sysconf => ∃ crc tries, v.stage = .data crc tries (chunkContext v.conf).chunkSize ∧ ChunkInside v.conf
  | .msync offset size => ∃ crc tries page, v.stage = .sync crc tries page ∧
      offset = ((chunkContext v.conf).startPos + (chunkContext v.conf).chunkSize) -
        ((chunkContext v.conf).startPos + (chunkContext v.conf).chunkSize) % page ∧
      size = sizeSub v.conf.filec.size offset
  | _ => True

/-- A file has the length it was given. -/
def relies (v : View) (c : Call) (r : c.Answer) : Prop :=
  match c, r with
  | .fstat _, some size => v.length = some size
  | _, _ => True

/-- The view after another call. The calls that make the file may fail without an end of the program. -/
def after (v : View) (c : Call) (r : c.Answer) : View :=
  match c, r with
  | .ftruncate _ size, r => if r = true then { v with length := some size } else v
  | .fopen _ _, _ | .fclose _, _ | .fstatvfs _, _ | .stat _, _ | .fstat _, _ | .mmap _ _, _ => v
  | .sysconf, some page =>
    match v.stage with
    | .data crc tries _ => { v with stage := .sync crc tries page }
    | _ => v
  | .msync _ _, true =>
    match v.stage with
    | .sync crc tries _ => { v with stage := .verdict crc tries }
    | _ => v
  | c, r => if c.Succeeds r then v else { v with live := false }

/-- The receiver's role. -/
def role : Role View where
  free v := v.stage = .refused
  live v := v.live
  fail v := { v with live := false }
  hold := hold
  sends := sends Γ
  sent := sent Γ
  expects := expects
  reads := reads
  got := got
  emits _ _ _ := False
  emitted v _ := v
  collects := collects
  collected v _ b := collected v b
  allows := allows
  relies v _ c r := relies v c r
  after v _ c r := after v c r

/-- The ways a receiver that has not refused fails: a call failed, a FLOW header did not fit, the tries are used up, or the chunk
starts past the end of the file. -/
def Stuck (v : View) : Prop :=
  v.live = false ∨ v.stage = .reject ∨ (∃ crc, v.stage = .data crc v.conf.tfTrycount 0) ∨
    ∃ crc tries, v.stage = .data crc tries 0 ∧ v.conf.filec.size ≤ (chunkContext v.conf).startPos

/-- How a phase of the receiver ends: with `ok` in the view and the process, or as `Stuck` says, or for a reason in `bad`. -/
def Ends (ok : View → Proc → Prop) (bad : Prop) (v : View) (s : Proc) (stat : Status) : Prop :=
  v.stage = .refused ∨
    hold v s ∧ (stat = .success → v.live = true ∧ ok v s) ∧ (stat ≠ .success → Stuck v ∨ bad)

variable {Γ} {v : View} {s : Proc}

theorem at_of (hstage : v.stage ≠ .refused) (hlive : v.live = true) (hhold : hold v s) : (role Γ).At v s :=
  ⟨decide_eq_false hstage, hlive, hhold⟩

/-- A phase and what follows it when it succeeds. -/
theorem sat_check {x y : Prog Status} {ok : View → Proc → Prop} {bad : Prop} {Q : View → Proc → Status → Prop}
    (hx : (x s).Sat (role Γ).monitor v (Ends ok bad)) (hrefused : ∀ v s stat, v.stage = .refused → Q v s stat)
    (hok : ∀ v s, v.stage ≠ .refused → v.live = true → hold v s → ok v s → (y s).Sat (role Γ).monitor v Q)
    (hfail : ∀ v s stat, stat ≠ .success → hold v s → Stuck v ∨ bad → Q v s stat) :
    ((x >>= fun stat => if stat ≠ .success then pure stat else y) s).Sat (role Γ).monitor v Q := by
  refine sat_bind (hx.mono ?_)
  intro v s stat h
  by_cases hr : v.stage = .refused
  · exact sat_free (decide_eq_true hr) (fun s b => hrefused v s b hr) _
  obtain ⟨hhold, hsuccess, hstuck⟩ := h.resolve_left hr
  refine sat_ite (fun hne => hfail v s stat hne hhold (hstuck hne)) (fun heq => ?_)
  have heq := Decidable.not_not.1 heq
  exact hok v s hr (hsuccess heq).1 hhold (hsuccess heq).2

/-! ## The handshake -/

/-- The packet and the infostring of a SEND header. -/
theorem sat_pullSendHeader {Q : View → Proc → Status × SendArgs → Prop} {sock : Sockfd} {args : SendArgs} {timeout : Int}
    (h : (role Γ).At v s) (htype : expects v = .send) (hread : reads v (PacketType.size .send))
    (hat : ∀ b, (role Γ).At (got v b) s ∧ reads (got v b) infostrSize)
    (hok : ∀ b i info, Q (got (got v b) i) s (.success, { packet := convertSendPacket (.ofBytes b), info := info }))
    (hfail : ∀ v' stat args, stat ≠ .success → v'.live = false → hold v' s → Q v' s (stat, args)) :
    (pullSendHeader sock args timeout s).Sat (role Γ).monitor v Q := by
  unfold pullSendHeader
  refine sat_bind (sat_pullPacket h htype hread ?_ ?_)
  · intro b _
    refine sat_ite (fun hne => absurd rfl hne) (fun _ => sat_bind ?_)
    refine sat_pullTcpData (hat b).1 (hat b).2 ?_ ?_
    · intro i _
      exact sat_ite (fun hne => absurd rfl hne) (fun _ => hok b i _)
    · intro stat i hstat
      exact sat_ite (fun _ => hfail _ stat _ hstat rfl (hat b).1.hold) (fun heq => absurd hstat heq)
  · intro stat b hstat
    exact sat_ite (fun _ => hfail _ stat _ hstat rfl h.hold) (fun heq => absurd hstat heq)

theorem hold_making (hstage : v.stage = .making) (hhold : Stored v.conf s) : hold v s := by
  simp only [hold, hstage]
  exact hhold

section File

variable (hlive : v.live = true) (hstage : v.stage = .making) (hhold : Stored v.conf s)
include hlive hstage hhold

theorem at_making : (role Γ).At v s := at_of (by rw [hstage]; decide) hlive (hold_making hstage hhold)

theorem sat_createFile {Q : View → Proc → Status → Prop} (path : Bytes)
    (hok : s.conf.filec.size ≠ 0 → Q { v with length := some s.conf.filec.size } s .success)
    (hfail : ∀ stat, stat ≠ .success → Q v s stat) :
    (createFile path s.conf.filec.size s).Sat (role Γ).monitor v Q := by
  have hat : (role Γ).At v s := at_making hlive hstage hhold
  unfold createFile
  refine sat_call hat trivial fun opened _ => ?_
  cases opened with
  | none => exact hfail _ nofun
  | some file =>
    refine sat_ite (fun hzero => sat_call hat trivial fun _ _ => hfail _ nofun) (fun hsize => ?_)
    refine sat_call hat trivial fun info _ => ?_
    cases info with
    | none => exact sat_call hat trivial fun _ _ => hfail _ nofun
    | some avail =>
      refine sat_ite (fun _ => sat_call hat trivial fun _ _ => hfail _ nofun) (fun _ => ?_)
      refine sat_call hat ⟨hstage, rfl⟩ fun truncated _ => ?_
      cases truncated with
      | false => exact sat_ite (fun _ => sat_call hat trivial fun _ _ => hfail _ nofun) nofun
      | true => exact sat_ite nofun (fun _ => hok hsize)

theorem sat_mfopen {Q : View → Proc → MFile → Prop} (path : Bytes) (hlength : v.length = some s.conf.filec.size)
    (hok : ∀ file buf, buf.length = s.conf.filec.size →
      Q v s { file := some file, isOpen := true, size := s.conf.filec.size, pos := 0, buf := buf })
    (hfail : ∀ mfile, mfile.isOpen = false → Q v s mfile) :
    (mfopen path .rplus s).Sat (role Γ).monitor v Q := by
  have hat : (role Γ).At v s := at_making hlive hstage hhold
  unfold mfopen
  refine sat_call hat trivial fun opened _ => ?_
  cases opened with
  | none => exact hfail _ rfl
  | some file =>
    refine sat_call hat ⟨hstage, hlength⟩ fun info hinfo => ?_
    cases info with
    | none => exact sat_call hat trivial fun _ _ => hfail _ rfl
    | some stSize =>
      -- the file has the length `ftruncate` gave it
      have hsize : stSize = s.conf.filec.size := Option.some.inj (Eq.trans (Eq.symm hinfo) hlength)
      refine sat_call hat trivial fun mapped _ => ?_
      cases mapped with
      | none => exact sat_call hat trivial fun _ _ => hfail _ rfl
      | some buf =>
        have := hok file buf.1 (buf.2.trans hsize)
        rw [← hsize] at this
        exact this

theorem sat_startFileStream {Q : View → Proc → Status → Prop} (path : Bytes)
    (hok : ∀ mfile name, mfile.isOpen = true → mfile.size = s.conf.filec.size → mfile.buf.length = s.conf.filec.size →
      s.conf.filec.size ≠ 0 → Q { v with length := some s.conf.filec.size }
        { s with conf := { s.conf with filec := { s.conf.filec with mfile := mfile, name := name } } } .success)
    (hfail : ∀ length stat, stat ≠ .success → Q { v with length := length } s stat) :
    (startFileStream path .mwr s).Sat (role Γ).monitor v Q := by
  unfold startFileStream prepareFile
  refine sat_bind (sat_conf (sat_createFile hlive hstage hhold path (fun hsize => ?_) fun stat hstat => ?_))
  · refine sat_ite (fun hne => absurd rfl hne) (fun _ => sat_bind ?_)
    refine sat_mfopen (v := { v with length := some s.conf.filec.size }) hlive hstage hhold path rfl (fun file buf hbuf => ?_) (fun mfile hclosed => ?_)
    · exact sat_ite nofun (fun _ => hok _ _ rfl rfl hbuf hsize)
    · exact sat_ite (fun _ => hfail _ _ nofun) (fun hopen => absurd (by rw [hclosed]; rfl) hopen)
  · exact sat_ite (fun _ => hfail v.length stat hstat) (fun heq => absurd hstat heq)

end File

theorem hold_turn (hstage : v.stage = turn v.conf) (h : Shares v.conf s) : hold v s := by
  unfold hold
  rw [hstage, turn]
  by_cases hseq : v.conf.seq ≤ v.conf.chcount
  · rw [if_pos hseq]
    exact ⟨h, hseq⟩
  · rw [if_neg hseq]
    exact ⟨h, hseq⟩

theorem shares_of_turn (hstage : v.stage = turn v.conf) (h : hold v s) : Shares v.conf s := by
  unfold hold at h
  rw [hstage, turn] at h
  by_cases hseq : v.conf.seq ≤ v.conf.chcount
  · rw [if_pos hseq] at h
    exact h.1
  · rw [if_neg hseq] at h
    exact h.1

theorem turn_ne_refused (c : InitConfig) : turn c ≠ .refused := by
  unfold turn
  split <;> exact nofun

/-- After the handshake: the first chunk is awaited. -/
def Begun (v : View) (s : Proc) : Prop := v.stage = turn v.conf ∧ s.phase = .handshake

theorem mapped_core {c : InitConfig} (h : Mapped c) (seq : UInt32) : Mapped (core { c with seq := seq }) :=
  ⟨h.isOpen, h.size, h.length, h.offered, h.pos⟩

/-- The file is made and the offer answered. -/
theorem sat_answerOffer (path : Bytes) (sock : Sockfd) (timeout : Int) (hstage : v.stage = .making) (hlive : v.live = true)
    (hstored : Stored v.conf s) :
    ((do
      let made ← startFileStream path .mwr
      let stat ← pushRecvHeader sock (packRecvPacket (if made = .success then 1 else 0) 0 0) timeout
      if stat ≠ .success then return stat
      setConf (fun c => { c with seq := 1 })
      return stat : Prog Status) s).Sat (role Γ).monitor v (Ends Begun False) := by
  refine sat_bind (sat_startFileStream hlive hstage hstored path ?_ ?_)
  · intro mfile name hopen hsize hlength hne
    generalize hs : ({ s with conf := { s.conf with filec := { s.conf.filec with mfile := mfile, name := name } } } : Proc) = s₁
    have hmapped : Mapped s₁.conf := by
      rw [← hs]
      refine ⟨hopen, hsize, hlength, ?_, Nat.pos_of_ne_zero hne⟩
      change s.conf.filec.size = calcFileSize s.conf.chcount s.conf.chsize s.conf.pchsize
      rw [hstored.size, hstored.chsize, hstored.pchsize, hstored.chcount]
    have hstored₁ : Stored v.conf s₁ := by
      rw [← hs]
      exact ⟨hstored.chsize, hstored.pchsize, hstored.chcount, hstored.size, hstored.phase⟩
    refine sat_bind (sat_pushHeader (at_making hlive hstage hstored₁) ?_ ?_ ?_)
    · change sends Γ { v with length := some s.conf.filec.size } s₁ _
      simp only [sends, hstage]
      exact .inl ⟨rfl, hmapped⟩
    · refine sat_ite (fun h => absurd rfl h) (fun _ => sat_setConf (sat_pure ?_))
      change Ends Begun False (sent Γ { v with length := some s.conf.filec.size } s₁ _) _ _
      simp only [sent, hstage]
      rw [if_pos (by rfl)]
      have hshares : Shares (core { s₁.conf with seq := 1 }) { s₁ with conf := { s₁.conf with seq := 1 } } :=
        ⟨rfl, mapped_core hmapped 1, counted_first (core s₁.conf), fun h => absurd hstored₁.phase h⟩
      exact .inr ⟨hold_turn rfl hshares, fun _ => ⟨hlive, rfl, hstored₁.phase⟩, fun h => absurd rfl h⟩
    · intro stat hstat
      refine sat_ite (fun _ => sat_pure (.inr ⟨?_, fun h => absurd h hstat, fun _ => .inl (.inl rfl)⟩)) (fun h => absurd hstat h)
      exact hold_making hstage hstored₁
  · intro length stat hstat
    rw [if_neg hstat]
    refine sat_bind (sat_pushHeader (at_making hlive hstage hstored) ?_ ?_ ?_)
    · change sends Γ { v with length := length } s _
      simp only [sends, hstage]
      exact .inr trivial
    · have hrefused : (sent Γ { v with length := length } s (packRecvPacket 0 0 0).bytes).stage = .refused := by
        simp only [sent, hstage]
        rw [if_neg (by decide)]
      exact sat_free (decide_eq_true hrefused) (fun _ _ => .inl hrefused) _
    · intro stat hstat
      refine sat_ite (fun _ => sat_pure (.inr ⟨?_, fun h => absurd h hstat, fun _ => .inl (.inl rfl)⟩)) (fun h => absurd hstat h)
      exact hold_making hstage hstored

theorem sat_pullHandshake (garbage : SendArgs) (hstage : v.stage = .offer) (hlive : v.live = true) :
    (pullHandshake garbage s).Sat (role Γ).monitor v (Ends Begun False) := by
  have hat (s' : Proc) : (role Γ).At v s' := at_of (by rw [hstage]; decide) hlive (by simp only [hold, hstage])
  unfold pullHandshake
  refine sat_enter (sat_conf (sat_bind (sat_pullSendHeader (hat _) ?_ ?_ ?_ ?_ ?_)))
  · simp only [expects, hstage]
  · simp only [reads, hstage]
  · intro b
    have hgot : (got v b).stage = .offerInfo := by simp only [got, hstage]
    have hlive' : (got v b).live = true := by simpa only [got, hstage] using hlive
    exact ⟨at_of (by rw [hgot]; decide) hlive' (by simp only [hold, hgot]), by simp only [reads, hgot]⟩
  · intro b i info
    have hgot : got (got v b) i = { v with
        stage := .making, conf := { v.conf with chsize := (convertSendPacket (.ofBytes b)).chunkSize,
                                                pchsize := (convertSendPacket (.ofBytes b)).partialChunkSize,
                                                chcount := (convertSendPacket (.ofBytes b)).chunkCount } } := by
      simp only [got, hstage]
    rw [hgot]
    refine sat_ite (fun hne => absurd rfl hne) (fun _ => sat_ite (fun hinvalid => ?_) (fun _ => ?_))
    · exact absurd hinvalid (by simp [isValidSendHeader])
    · exact sat_setConf (sat_conf (sat_answerOffer _ _ _ rfl hlive ⟨rfl, rfl, rfl, rfl, rfl⟩))
  · intro v' stat args hstat hdead hhold
    exact sat_ite (fun _ => .inr ⟨hhold, fun h => absurd h hstat, fun _ => .inl (.inl hdead)⟩) (fun heq => absurd hstat heq)

/-! ## A chunk -/

/-- Part of a chunk has come: the view is the one it began with but for the stage and the bytes of the file. -/
structure Filling (v₀ : View) (crc : UInt32) (tries got : Nat) (v : View) (s : Proc) : Prop where
  view : ∃ buf, v = { v₀ with stage := .data crc tries got, conf := withBuf v₀.conf buf }
  live : v.live = true
  shares : Shares v.conf s
  seq : v.conf.seq ≤ v.conf.chcount
  le : got ≤ (chunkContext v.conf).chunkSize
  inside : ChunkInside v.conf
  pos : s.conf.filec.mfile.pos = (chunkContext v.conf).startPos + got
  phase : s.phase = .data

section Filling

variable {v₀ : View} {crc : UInt32} {tries n : Nat}

theorem Filling.stage (h : Filling v₀ crc tries n v s) : v.stage = .data crc tries n := by
  obtain ⟨_, rfl⟩ := h.view
  rfl

theorem Filling.hold (h : Filling v₀ crc tries n v s) : hold v s := by
  simp only [Receiver.hold, h.stage]
  exact ⟨h.shares, h.seq, h.le⟩

theorem Filling.at (h : Filling v₀ crc tries n v s) : (role Γ).At v s := at_of (by rw [h.stage]; exact nofun) h.live h.hold

/-- The chunk does not depend on the bytes of the file. -/
theorem Filling.chunk (h : Filling v₀ crc tries n v s) : chunkContext v.conf = chunkContext v₀.conf := by
  obtain ⟨_, rfl⟩ := h.view
  rfl

/-- A datagram is written where the cursor is, and the chunk is filled that far. -/
theorem Filling.collect (h : Filling v₀ crc tries n v s) {b : Bytes} (hb : n + b.length ≤ (chunkContext v.conf).chunkSize) :
    Filling v₀ crc tries (n + b.length) (collected v b)
      { s with conf := { s.conf with filec := { s.conf.filec with mfile := mfwrite b b.length 1 s.conf.filec.mfile } } } := by
  have hcore := h.shares.core
  have hmapped := h.shares.mapped
  have hinside := h.inside
  unfold ChunkInside at hinside
  have hopen : s.conf.filec.mfile.isOpen = true := by
    have := hmapped.isOpen
    rw [← hcore] at this
    exact this
  have hsize : s.conf.filec.mfile.size = v.conf.filec.size := by
    rw [← hmapped.size, ← hcore]
    rfl
  have hbuf : s.conf.filec.mfile.buf = v.conf.filec.mfile.buf := by
    rw [← hcore]
    rfl
  have hwrite := @mfwrite_of_fits s.conf.filec.mfile b hopen (by rw [hsize]; exact hmapped.size_lt)
    (by rw [hsize, h.pos]; omega)
  have hview : collected v b = { v with
      stage := .data crc tries (n + b.length),
      conf := withBuf v.conf (overwrite v.conf.filec.mfile.buf ((chunkContext v.conf).startPos + n) b) } := by
    simp only [collected, h.stage]
  rw [hwrite, hview]
  refine ⟨?_, h.live, ⟨?_, ?_, ?_, h.shares.segsize⟩, h.seq, hb, h.inside, ?_, h.phase⟩
  · obtain ⟨buf, rfl⟩ := h.view
    exact ⟨_, rfl⟩
  · rw [hbuf, h.pos, ← hcore]
    rfl
  · refine ⟨hmapped.isOpen, hmapped.size, ?_, hmapped.offered, hmapped.pos⟩
    have hlen : (chunkContext v.conf).startPos + n + b.length ≤ v.conf.filec.mfile.buf.length := by
      rw [hmapped.length]
      omega
    exact (length_overwrite hlen).trans hmapped.length
  · exact ⟨h.shares.counted.none, h.shares.counted.wrapped⟩
  · change s.conf.filec.mfile.pos + b.length = (chunkContext v.conf).startPos + (n + b.length)
    rw [h.pos]
    omega

end Filling

/-- The loop over the segments fills the chunk. -/
theorem sat_pullSegments {Q : View → Proc → Status → Prop} {v₀ : View} {crc : UInt32} {tries : Nat} (sock : Sockfd) (timeout : Int)
    (hok : ∀ v s, Filling v₀ crc tries (chunkContext v₀.conf).chunkSize v s → Q v s .success)
    (hfail : ∀ v s stat, stat ≠ .success → v.live = false → hold v s → Q v s stat) (rounds : Nat) :
    ∀ rsize n v s, Filling v₀ crc tries n v s → n + rsize = (chunkContext v₀.conf).chunkSize →
      (pullSegments sock timeout rounds rsize s).Sat (role Γ).monitor v Q := by
  -- induction on the rounds: each takes one datagram
  induction rounds with
  | zero =>
    intro rsize n v s h hsum
    cases rsize with
    | zero => exact hok v s (by rw [← hsum]; exact h)
    | succ rsize => exact fun _ => h.hold
  | succ rounds ih =>
    intro rsize n v s h hsum
    cases rsize with
    | zero => exact hok v s (by rw [← hsum]; exact h)
    | succ rsize =>
      have hchunk := h.chunk
      have hseg : s.conf.segsize = segsizeOf v.conf := h.shares.segsize (by rw [h.phase]; decide)
      have hcollects : collects v s (if s.conf.segsize ≤ rsize + 1 then s.conf.segsize else rsize + 1) := by
        simp only [collects, h.stage]
        refine ⟨by rw [hchunk]; omega, ?_, h.pos, h.inside⟩
        rw [hseg, hchunk]
        split <;> omega
      have hle : (if s.conf.segsize ≤ rsize + 1 then s.conf.segsize else rsize + 1) ≤ rsize + 1 := by
        split <;> omega
      unfold pullSegments
      refine sat_conf ?_
      generalize (if s.conf.segsize ≤ rsize + 1 then s.conf.segsize else rsize + 1) = size at hcollects hle ⊢
      refine sat_poll h.at ⟨size, hcollects⟩ (sat_ite (by simp) fun _ => sat_bind ?_) ?_
      · unfold pullUdpData
        refine sat_call h.at hcollects fun received _ => ?_
        cases received with
        | none => exact sat_ite (fun _ => hfail _ _ _ (by simp) rfl h.hold) (fun hne => absurd (by simp) hne)
        | some b =>
          obtain ⟨b, hbsize⟩ := b
          refine sat_ite (fun hb => ?_) (fun hb => ?_)
          · have hnext : (role Γ).next v s (.recv .dgram sock size false) (some ⟨b, hbsize⟩) = { v with live := false } :=
              if_neg (Nat.not_le.2 hb)
            rw [hnext]
            exact sat_ite (fun _ => hfail _ _ _ (by simp) rfl h.hold) (fun hne => absurd (by simp) hne)
          · obtain rfl : b.length = size := Nat.le_antisymm hbsize (Nat.le_of_not_lt hb)
            have hnext : (role Γ).next v s (.recv .dgram sock b.length false) (some ⟨b, hbsize⟩) = collected v b :=
              if_pos (Nat.le_of_not_lt hb)
            rw [hnext]
            refine sat_ite (fun hne => absurd rfl hne) (fun _ => sat_setConf ?_)
            refine ih _ _ _ _ (h.collect ?_) ?_
            · rw [hchunk]
              omega
            · omega
      · intro r hr
        cases r with
        | error => exact hfail _ _ _ (by simp) rfl h.hold
        | timeout => exact hfail _ _ _ (by simp) rfl h.hold
        | ready hit =>
          cases hit with
          | true => exact absurd rfl hr
          | false => exact sat_ite (fun _ => hfail _ _ _ (by simp) rfl h.hold) (fun hne => absurd rfl hne)

/-- A chunk that is whole and synced. -/
structure Filled (v₀ : View) (crc : UInt32) (tries : Nat) (v : View) (s : Proc) : Prop where
  view : ∃ buf, v = { v₀ with stage := .verdict crc tries, conf := withBuf v₀.conf buf }
  live : v.live = true
  shares : Shares v.conf s
  seq : v.conf.seq ≤ v.conf.chcount
  inside : ChunkInside v.conf
  phase : s.phase = .data

theorem sat_mfsync {Q : View → Proc → Bool → Prop} {v₀ : View} {crc : UInt32} {tries : Nat}
    (h : Filling v₀ crc tries (chunkContext v₀.conf).chunkSize v s)
    (hok : ∀ v, Filled v₀ crc tries v s → Q v s true) (hfail : ∀ v, v.live = false → hold v s → Q v s false) :
    (mfsync s.conf.filec.mfile s).Sat (role Γ).monitor v Q := by
  have hstage := h.stage
  rw [← h.chunk] at hstage
  unfold mfsync
  refine sat_call h.at ⟨crc, tries, hstage, h.inside⟩ fun page _ => ?_
  cases page with
  | none => exact hfail _ rfl h.hold
  | some page =>
    have hnext : (role Γ).next v s .sysconf (some page) = { v with stage := .sync crc tries page } := by
      change after v .sysconf (some page) = _
      simp only [after, hstage]
    rw [hnext]
    have hat : (role Γ).At { v with stage := .sync crc tries page } s :=
      at_of nofun h.live ⟨h.shares, h.seq, h.inside, h.phase⟩
    have hpos := h.pos
    rw [← h.chunk] at hpos
    have hsize : s.conf.filec.mfile.size = v.conf.filec.size := by
      rw [← h.shares.mapped.size, ← h.shares.core]
      rfl
    rw [hpos, hsize]
    refine sat_last hat ⟨crc, tries, page, rfl, rfl, rfl⟩ fun synced _ => ?_
    cases synced with
    | false => exact hfail _ rfl hat.hold
    | true =>
      refine hok _ ⟨?_, h.live, h.shares, h.seq, h.inside, h.phase⟩
      obtain ⟨buf, rfl⟩ := h.view
      exact ⟨buf, rfl⟩

/-- A try of the chunk is about to begin. -/
structure Trying (crc : UInt32) (tries : Nat) (v : View) (s : Proc) : Prop where
  stage : v.stage = .data crc tries 0
  live : v.live = true
  shares : Shares v.conf s
  seq : v.conf.seq ≤ v.conf.chcount
  phase : s.phase = .data

theorem Trying.hold {crc : UInt32} {tries : Nat} (h : Trying crc tries v s) : hold v s := by
  simp only [Receiver.hold, h.stage]
  exact ⟨h.shares, h.seq, Nat.zero_le _⟩

theorem Trying.at {crc : UInt32} {tries : Nat} (h : Trying crc tries v s) : (role Γ).At v s :=
  at_of (by rw [h.stage]; exact nofun) h.live h.hold

theorem sat_pullChunkData {Q : View → Proc → Status → Prop} {crc : UInt32} {tries : Nat} (sock : Sockfd) (timeout : Int)
    (h : Trying crc tries v s) (hok : ∀ v' s', Filled v crc tries v' s' → Q v' s' .success)
    (hfail : ∀ v s stat, stat ≠ .success → hold v s → Stuck v → Q v s stat) :
    (pullChunkData sock (chunkContext v.conf) timeout s).Sat (role Γ).monitor v Q := by
  have hcore := h.shares.core
  have hopen : s.conf.filec.mfile.isOpen = true := by
    have := h.shares.mapped.isOpen
    rw [← hcore] at this
    exact this
  have hsize : s.conf.filec.mfile.size = v.conf.filec.size := by
    rw [← h.shares.mapped.size, ← hcore]
    rfl
  unfold pullChunkData
  refine sat_conf (sat_calloc h.at (sat_ite nofun fun _ => ?_) (sat_ite (fun _ => ?_) nofun))
  · by_cases hseek : (chunkContext v.conf).startPos < v.conf.filec.size
    · have hinside := chunkInside_of_seek h.shares.mapped h.shares.counted h.seq hseek
      have hmfseek : mfseek s.conf.filec.mfile (chunkContext v.conf).startPos =
          ((chunkContext v.conf).startPos, { s.conf.filec.mfile with pos := (chunkContext v.conf).startPos }) := by
        simp [mfseek, hopen, hsize, hseek]
      rw [hmfseek]
      have hfilling : Filling v crc tries 0 v { s with conf := { s.conf with filec := { s.conf.filec with
          mfile := { s.conf.filec.mfile with pos := (chunkContext v.conf).startPos } } } } := by
        refine ⟨⟨v.conf.filec.mfile.buf, ?_⟩, h.live, ⟨hcore, h.shares.mapped, h.shares.counted, h.shares.segsize⟩, h.seq,
          Nat.zero_le _, hinside, rfl, h.phase⟩
        rw [← h.stage]
        rfl
      refine sat_setConf (sat_ite (fun hne => absurd rfl hne) fun _ => sat_bind ?_)
      -- what follows the option of the socket, whether or not it is set
      have hrest : ∀ v' s', Filling v crc tries 0 v' s' →
          ((do
            let stat ← pullSegments sock timeout (chunkContext v.conf).chunkSize (chunkContext v.conf).chunkSize
            if stat ≠ .success then return stat
            let c ← conf
            let synced ← mfsync c.filec.mfile
            if !synced then return .emfsync
            return stat : Prog Status) s').Sat (role Γ).monitor v' Q := by
        intro v' s' h'
        refine sat_bind (sat_pullSegments sock timeout ?_ ?_ _ _ 0 v' s' h' (Nat.zero_add _))
        · intro v₁ s₁ h₁
          refine sat_ite (fun hne => absurd rfl hne) fun _ => sat_conf (sat_bind (sat_mfsync h₁ ?_ ?_))
          · intro v₂ h₂
            exact sat_ite nofun fun _ => hok v₂ s₁ h₂
          · intro v₂ hdead hhold
            exact sat_ite (fun _ => hfail v₂ s₁ _ nofun hhold (.inl hdead)) (fun hne => absurd rfl hne)
        · intro v₁ s₁ stat hstat hdead hhold
          exact sat_ite (fun _ => hfail v₁ s₁ stat hstat hhold (.inl hdead)) (fun heq => absurd hstat heq)
      refine sat_ite (fun _ => ?_) (fun _ => sat_pure (sat_ite (fun hne => absurd rfl hne) fun _ => hrest _ _ hfilling))
      unfold setSocketRcvlowsize
      refine sat_call hfilling.at trivial fun ok _ => ?_
      cases ok with
      | false => exact sat_ite (fun _ => sat_ite (fun _ => hfail _ _ _ nofun hfilling.hold (.inl rfl)) (fun hne => absurd nofun hne)) nofun
      | true => exact sat_ite nofun fun _ => sat_ite (fun hne => absurd rfl hne) fun _ => hrest _ _ hfilling
    · have hmfseek : mfseek s.conf.filec.mfile (chunkContext v.conf).startPos = (0, s.conf.filec.mfile) := by
        simp [mfseek, hsize, hseek]
      rw [hmfseek]
      have hne : (chunkContext v.conf).startPos ≠ 0 := fun hzero => hseek (by rw [hzero]; exact h.shares.mapped.pos)
      refine sat_setConf (sat_ite (fun _ => ?_) (fun heq => absurd hne heq))
      exact hfail v _ _ nofun h.hold (.inr (.inr (.inr ⟨crc, tries, h.stage, Nat.le_of_not_lt hseek⟩)))
  · exact hfail _ _ _ nofun h.hold (.inl rfl)

/-! ## The transfer -/

/-- The process after the counter of the loop has moved. -/
def bump (s : Proc) : Proc := { s with conf := { s.conf with seq := s.conf.seq + 1 } }

theorem Shares.seq_eq {c : InitConfig} (h : Shares c s) : s.conf.seq = c.seq := by
  rw [← h.core]
  rfl

theorem Shares.chunk_eq {c : InitConfig} (h : Shares c s) : chunkContext s.conf = chunkContext c := by
  rw [← h.core]
  rfl

theorem Shares.buf_eq {c : InitConfig} (h : Shares c s) : s.conf.filec.mfile.buf = c.filec.mfile.buf := by
  rw [← h.core]
  rfl

theorem Shares.bump {c : InitConfig} (h : Shares c s) (hseq : c.seq ≤ c.chcount) :
    Shares { c with seq := c.seq + 1 } (bump s) where
  core := by
    rw [← h.core]
    rfl
  mapped := h.mapped.next _
  counted := h.counted.next hseq
  segsize := h.segsize

/-- The receiver counts the bytes in its file. -/
theorem Shares.chunkCrc_eq (h : Shares v.conf s) : calcChunkCrc32 Γ s.conf.filec (chunkContext v.conf) = chunkCrc Γ v := by
  rw [calcChunkCrc32, h.buf_eq]
  rfl

/-- The chunk has been accepted; the counter of the process has not moved yet. -/
structure Accepted (t : Nat) (v : View) (s : Proc) : Prop where
  stage : v.stage = turn v.conf
  live : v.live = true
  shares : Shares v.conf (bump s)
  phase : s.phase = .data
  tries : v.conf.tfTrycount = t

theorem sat_pullDataLoop {Q : View → Proc → Status × Nat → Prop} {flow : FlowPacket} {t : Nat} (trycount : Nat)
    (hok : ∀ v s k, Accepted t v s → Q v s (.success, k + 1))
    (hout : ∀ v s, v.stage = .data flow.crc v.conf.tfTrycount 0 → hold v s → Q v s (.success, 0))
    (hfail : ∀ v s stat k, stat ≠ .success → hold v s → Stuck v → Q v s (stat, k)) :
    ∀ tries v s, v.stage = .data flow.crc tries 0 → v.live = true → Shares v.conf s → v.conf.seq ≤ v.conf.chcount →
      s.phase ≠ .handshake → v.conf.tfTrycount = t → tries + trycount = t →
      (pullDataLoop Γ flow (chunkContext v.conf) trycount s).Sat (role Γ).monitor v Q := by
  -- induction on the tries that are left
  induction trycount with
  | zero =>
    intro tries v s hstage _ hshares hseq _ htry hsum
    rw [Nat.add_zero, ← htry] at hsum
    refine hout v s (by rw [← hsum]; exact hstage) ?_
    simp only [hold, hstage]
    exact ⟨hshares, hseq, Nat.zero_le _⟩
  | succ trycount ih =>
    intro tries v s hstage hlive hshares hseq hphase htry hsum
    unfold pullDataLoop
    have htrying : Trying flow.crc tries v { s with phase := .data } :=
      ⟨hstage, hlive, ⟨hshares.core, hshares.mapped, hshares.counted, fun _ => hshares.segsize hphase⟩, hseq, rfl⟩
    refine sat_enter (sat_conf (sat_bind (sat_pullChunkData _ _ htrying ?_ ?_)))
    · intro v₁ s₁ h₁
      refine sat_ite (fun hne => absurd rfl hne) fun _ => sat_conf ?_
      have hchunk : chunkContext v.conf = chunkContext v₁.conf := by
        obtain ⟨buf, rfl⟩ := h₁.view
        rfl
      have hstage₁ : v₁.stage = .verdict flow.crc tries := by
        obtain ⟨buf, rfl⟩ := h₁.view
        rfl
      have htry₁ : v₁.conf.tfTrycount = t := by
        obtain ⟨buf, rfl⟩ := h₁.view
        exact htry
      have hhold₁ : hold v₁ s₁ := by
        simp only [hold, hstage₁]
        exact ⟨h₁.shares, h₁.seq, h₁.inside, h₁.phase⟩
      have hat₁ : (role Γ).At v₁ s₁ := at_of (by rw [hstage₁]; simp) h₁.live hhold₁
      have hsends (ack : UInt8) (hack : ack = if flow.crc = chunkCrc Γ v₁ then 1 else 0) :
          (role Γ).sends v₁ s₁ (packRecvPacket ack 0 s₁.conf.seq).bytes := by
        change sends Γ v₁ s₁ _
        simp only [sends, hstage₁]
        rw [h₁.shares.seq_eq, hack]
      rw [hchunk, h₁.shares.chunkCrc_eq]
      refine sat_ite (fun hcrc => ?_) (fun hcrc => ?_)
      · refine sat_bind (sat_pushHeader hat₁ (hsends 1 (by rw [if_pos hcrc])) ?_ ?_)
        · refine sat_ite (fun hne => absurd rfl hne) fun _ => sat_pure (hok _ _ _ ?_)
          change Accepted t (sent Γ v₁ s₁ _) s₁
          simp only [sent, hstage₁, if_pos hcrc]
          exact ⟨rfl, h₁.live, h₁.shares.bump h₁.seq, h₁.phase, htry₁⟩
        · intro stat hstat
          exact sat_ite (fun _ => hfail _ _ _ _ hstat hhold₁ (.inl rfl)) (fun heq => absurd hstat heq)
      · refine sat_bind (sat_pushHeader hat₁ (hsends 0 (by rw [if_neg hcrc])) ?_ ?_)
        · refine sat_ite (fun hne => absurd rfl hne) fun _ => ?_
          have hnext : sent Γ v₁ s₁ (packRecvPacket 0 0 s₁.conf.seq).bytes = { v₁ with stage := .data flow.crc (tries + 1) 0 } := by
            simp only [sent, hstage₁, if_neg hcrc]
          change Tree.Sat _ _ (sent Γ v₁ s₁ _) _
          rw [hnext]
          exact ih (tries + 1) { v₁ with stage := .data flow.crc (tries + 1) 0 } s₁ rfl h₁.live h₁.shares h₁.seq
            (by rw [h₁.phase]; decide) htry₁ (by omega)
        · intro stat hstat
          exact sat_ite (fun _ => hfail _ _ _ _ hstat hhold₁ (.inl rfl)) (fun heq => absurd hstat heq)
    · intro v₁ s₁ stat hstat hhold₁ hstuck
      exact sat_ite (fun _ => hfail _ _ _ _ hstat hhold₁ hstuck) (fun heq => absurd hstat heq)

/-- All chunks have come. -/
def Finished (v : View) (s : Proc) : Prop := v.stage = .final ∧ s.conf.segsize = segsizeOf v.conf

section Round

variable {flow : FlowPacket} (hlive : v.live = true) (hshares : Shares v.conf s) (hseq : v.conf.seq ≤ v.conf.chcount)
  (hphase : s.phase = .flow)
include hlive hshares hseq hphase

/-- The round of a FLOW header that fits: the answer, the chunk, and what follows it. -/
theorem sat_pullRound {rest : Prog Status}
    (hrest : ∀ v₁ s₁, Accepted v.conf.tfTrycount v₁ s₁ → (rest (bump s₁)).Sat (role Γ).monitor v₁ (Ends Finished False)) :
    ((do
      let stat ← pushRecvHeader s.conf.connSock (packRecvPacket 1 0 s.conf.seq) s.conf.tftRecv
      if stat ≠ .success then return stat
      let (stat, trycount) ← pullDataLoop Γ flow (chunkContext s.conf) v.conf.tfTrycount
      if stat ≠ .success then return stat
      if trycount = 0 then return .exptry0
      setConf (fun c => { c with seq := c.seq + 1 })
      rest : Prog Status) s).Sat (role Γ).monitor { v with stage := .answer flow.crc } (Ends Finished False) := by
  have hat : (role Γ).At { v with stage := .answer flow.crc } s := at_of nofun hlive ⟨hshares, hseq, hphase⟩
  refine sat_bind (sat_pushHeader hat ?_ ?_ ?_)
  · change _ = _
    rw [hshares.seq_eq]
  · refine sat_ite (fun hne => absurd rfl hne) fun _ => sat_bind ?_
    rw [hshares.chunk_eq]
    refine sat_pullDataLoop v.conf.tfTrycount ?_ ?_ ?_ 0 { v with stage := .data flow.crc 0 0 } s rfl hlive hshares hseq
      (by rw [hphase]; decide) rfl (Nat.zero_add _)
    · intro v₁ s₁ k h₁
      exact sat_ite (fun hne => absurd rfl hne) fun _ => sat_ite nofun fun _ => sat_setConf (hrest v₁ s₁ h₁)
    · intro v₁ s₁ hstage₁ hhold₁
      refine sat_ite (fun hne => absurd rfl hne) fun _ => sat_ite (fun _ => ?_) (fun hne => absurd rfl hne)
      exact .inr ⟨hhold₁, nofun, fun _ => .inl (.inr (.inr (.inl ⟨_, hstage₁⟩)))⟩
    · intro v₁ s₁ stat k hstat hhold₁ hstuck
      refine sat_ite (fun _ => ?_) (fun heq => absurd hstat heq)
      exact .inr ⟨hhold₁, fun h => absurd h hstat, fun _ => .inl hstuck⟩
  · intro stat hstat
    refine sat_ite (fun _ => ?_) (fun heq => absurd hstat heq)
    exact .inr ⟨hat.hold, fun h => absurd h hstat, fun _ => .inl (.inl rfl)⟩

/-- The round of a FLOW header that does not fit. -/
theorem sat_rejectRound : ((do
      let _ ← pushRecvHeader s.conf.connSock (packRecvPacket 0 0 s.conf.seq) s.conf.tftRecv
      return .badflow : Prog Status) s).Sat (role Γ).monitor { v with stage := .reject } (Ends Finished False) := by
  have hat : (role Γ).At { v with stage := .reject } s := at_of nofun hlive ⟨hshares, hseq, hphase⟩
  have hdone (live : Bool) : Ends Finished False { v with stage := .reject, live := live } s .badflow :=
    .inr ⟨⟨hshares, hseq, hphase⟩, nofun, fun _ => .inl (.inr (.inl rfl))⟩
  refine sat_bind (sat_pushHeader hat ?_ (hdone v.live) fun _ _ => hdone false)
  change _ = _
  rw [hshares.seq_eq]

end Round

theorem sat_pullTransferLoop (rounds : Nat) :
    ∀ v s, v.stage = turn v.conf → v.live = true → Shares v.conf s → s.conf.segsize = segsizeOf v.conf →
      (pullTransferLoop Γ rounds v.conf.tfTrycount s).Sat (role Γ).monitor v (Ends Finished False) := by
  -- induction on the rounds: one a chunk
  induction rounds with
  | zero =>
    intro v s hstage hlive hshares _
    exact fun _ => hold_turn hstage hshares
  | succ rounds ih =>
    intro v s hstage hlive hshares hseg
    unfold pullTransferLoop
    refine sat_enter (sat_conf ?_)
    generalize hs : ({ s with phase := .flow } : Proc) = s₀
    have hshares₀ : Shares v.conf s₀ := by
      rw [← hs]
      exact ⟨hshares.core, hshares.mapped, hshares.counted, fun _ => hseg⟩
    have hphase₀ : s₀.phase = .flow := by rw [← hs]
    have hhold₀ : hold v s₀ := hold_turn hstage hshares₀
    have hguard : s₀.conf.seq ≤ s₀.conf.chcount ↔ v.conf.seq ≤ v.conf.chcount := by
      rw [← hshares₀.core]
      rfl
    have hmatch (flow : FlowPacket) : matchFlow s₀.conf flow = matchFlow v.conf flow := by
      rw [← hshares₀.core]
      rfl
    have htry : s₀.conf.tfTrycount = v.conf.tfTrycount := by
      rw [← hshares₀.core]
      rfl
    refine sat_ite (fun hseq => ?_) (fun hseq => ?_)
    · rw [hguard] at hseq
      rw [turn, if_pos hseq] at hstage
      have hat₀ : (role Γ).At v s₀ := at_of (by rw [hstage]; simp) hlive hhold₀
      unfold pullFlowHeader
      refine sat_bind (sat_bind (sat_pullPacket hat₀ ?_ ?_ ?_ ?_))
      · change expects v = .flow
        simp only [expects, hstage]
      · change reads v _
        simp only [reads, hstage]
      · intro b _
        refine sat_ite (fun hne => absurd rfl hne) fun _ => sat_pure ?_
        refine sat_ite (fun hne => absurd rfl hne) fun _ => ?_
        generalize hflow : convertFlowPacket (.ofBytes b) = flow
        have hgot : got v b = { v with stage := if matchFlow v.conf flow then .answer flow.crc else .reject } := by
          simp only [got, hstage, hflow]
        change Tree.Sat _ _ (got v b) _
        rw [hgot, hmatch]
        refine sat_ite (fun hfits => ?_) (fun hfits => ?_)
        · rw [if_pos hfits]
          refine sat_pullRound hlive hshares₀ hseq hphase₀ fun v₁ s₁ h₁ => ?_
          rw [htry, ← h₁.tries]
          exact ih v₁ (bump s₁) h₁.stage h₁.live h₁.shares (h₁.shares.segsize (by rw [bump, h₁.phase]; decide))
        · rw [if_neg hfits]
          exact sat_rejectRound hlive hshares₀ hseq hphase₀
      · intro stat b hstat
        refine sat_ite (fun _ => sat_pure ?_) (fun heq => absurd hstat heq)
        refine sat_ite (fun _ => ?_) (fun heq => absurd hstat heq)
        exact .inr ⟨hhold₀, fun h => absurd h hstat, fun _ => .inl (.inl rfl)⟩
    · rw [hguard] at hseq
      rw [turn, if_neg hseq] at hstage
      have hseg₀ := hshares₀.segsize (by rw [hphase₀]; decide)
      exact sat_pure (.inr ⟨hhold₀, fun _ => ⟨hlive, hstage, hseg₀⟩, fun h => absurd rfl h⟩)

theorem sat_pullTransfer (rounds : Nat) (hstage : v.stage = turn v.conf) (hlive : v.live = true) (hshares : Shares v.conf s)
    (hseg : s.conf.segsize = segsizeOf v.conf) :
    (pullTransfer Γ rounds s).Sat (role Γ).monitor v (Ends Finished False) := by
  have htry : s.conf.tfTrycount = v.conf.tfTrycount := by
    rw [← hshares.core]
    rfl
  unfold pullTransfer
  refine sat_conf ?_
  rw [htry]
  exact sat_pullTransferLoop rounds v s hstage hlive hshares hseg

/-! ## The verification -/

/-- The verdict on the file has been pushed. -/
def Reported (v : View) (_ : Proc) : Prop := ∃ ack, v.stage = .done ack

theorem sat_pullVerification (garbage : SendArgs) (hstage : v.stage = .final) (hlive : v.live = true) (hhold : hold v s)
    (hseg : s.conf.segsize = segsizeOf v.conf) :
    (pullVerification Γ garbage s).Sat (role Γ).monitor v (Ends Reported False) := by
  simp only [hold, hstage] at hhold
  unfold pullVerification
  refine sat_enter (sat_conf ?_)
  generalize hs : ({ s with phase := .verification } : Proc) = s₀
  have hshares : Shares v.conf s₀ := by
    rw [← hs]
    exact ⟨hhold.1.core, hhold.1.mapped, hhold.1.counted, fun _ => hseg⟩
  -- at every stage of the verification the same holds
  have hat (stage : Stage) (hs : stage ≠ .refused) (hh : hold { v with stage := stage } s₀) :
      (role Γ).At { v with stage := stage } s₀ := at_of hs hlive hh
  have hfinal : (role Γ).At v s₀ := by
    refine at_of (by rw [hstage]; exact nofun) hlive ?_
    simp only [hold, hstage]
    exact ⟨hshares, hhold.2⟩
  have hfail (v' : View) (stat : Status) (hstat : stat ≠ .success) (hdead : v'.live = false) (hh : hold v' s₀) :
      Ends Reported False v' s₀ stat := .inr ⟨hh, fun h => absurd h hstat, fun _ => .inl (.inl hdead)⟩
  refine sat_call hfinal trivial fun created _ => ?_
  cases created with
  | false => exact sat_ite (fun _ => hfail _ _ nofun rfl hfinal.hold) nofun
  | true =>
    have hnext : (role Γ).next v s₀ .pthreadCreate true = v := rfl
    rw [hnext]
    refine sat_ite nofun fun _ => sat_bind (sat_pullSendHeader hfinal ?_ ?_ ?_ ?_ ?_)
    · simp only [expects, hstage]
    · simp only [reads, hstage]
    · intro b
      have hgot : got v b = { v with stage := .finalInfo (convertSendPacket (.ofBytes b)).crc } := by simp only [got, hstage]
      rw [hgot]
      exact ⟨hat _ nofun ⟨hshares, hhold.2⟩, rfl⟩
    · intro b i info
      have hgot : got (got v b) i = { v with stage := .report (convertSendPacket (.ofBytes b)).crc } := by
        simp only [got, hstage]
      rw [hgot]
      generalize convertSendPacket (.ofBytes b) = packet
      have hreport : (role Γ).At { v with stage := .report packet.crc } s₀ := hat _ nofun ⟨hshares, hhold.2⟩
      refine sat_ite (fun hne => absurd rfl hne) fun _ => sat_call hreport trivial fun joined _ => ?_
      cases joined with
      | false => exact sat_ite (fun _ => hfail _ _ nofun rfl hreport.hold) nofun
      | true =>
        have hnext : (role Γ).next { v with stage := .report packet.crc } s₀ .pthreadJoin true =
          { v with stage := .report packet.crc } := rfl
        rw [hnext]
        refine sat_ite nofun fun _ => sat_bind (sat_pushHeader hreport ?_ ?_ ?_)
        · change _ = _
          have hcrc : calcFileCrc16 Γ s₀.conf.filec = calcFileCrc16 Γ v.conf.filec := by
            rw [← hshares.core]
            rfl
          rw [hcrc, hshares.seq_eq]
          by_cases h : packet.crc = calcFileCrc16 Γ v.conf.filec
          · rw [if_pos h, if_pos h]
          · rw [if_neg h, if_neg h]
        · refine sat_ite (fun hne => absurd rfl hne) fun _ => sat_pure ?_
          exact .inr ⟨⟨hshares, hhold.2⟩, fun _ => ⟨hlive, _, rfl⟩, fun h => absurd rfl h⟩
        · intro stat hstat
          exact sat_ite (fun _ => hfail _ _ hstat rfl hreport.hold) (fun heq => absurd hstat heq)
    · intro v' stat args hstat hdead hh
      exact sat_ite (fun _ => hfail _ _ hstat hdead hh) (fun heq => absurd hstat heq)

/-! ## All phases -/

/-- What is asked of the program that opens the data socket: it leaves the receiver where it was, or fails, perhaps for a reason in
`bad` that no call shows. -/
def Opens (Γ : Libcrc) (bad : Prop) (opening : Prog Status) : Prop :=
  ∀ v s, Begun v s → v.live = true → hold v s → (opening s).Sat (role Γ).monitor v (Ends Begun bad)

theorem opens_success : Opens Γ False (pure .success) := by
  intro v s hbegun hlive hhold
  exact sat_pure (.inr ⟨hhold, fun _ => ⟨hlive, hbegun⟩, fun h => absurd rfl h⟩)

theorem sat_initUdpSocket {Q : View → Proc → Status × Sockfd → Prop} {sock : Sockfd} {srcIp dstIp : Bytes}
    {srcPort dstPort : UInt16} (h : (role Γ).At v s) (hok : ∀ sock, Q v s (.success, sock))
    (hfail : ∀ live stat sock, stat ≠ .success → Q { v with live := live } s (stat, sock)) :
    (initUdpSocket sock srcIp srcPort dstIp dstPort false s).Sat (role Γ).monitor v Q := by
  refine sat_openUdpSocket h ?_ ?_ hok (fun stat hstat _ => hfail v.live stat sock hstat) (hfail false)
  · rintro (_ | _) hc <;> first | trivial | exact hc.elim
  · rintro (_ | _) r hc <;> first | rfl | exact hc.elim

theorem opens_startData : Opens Γ True startData := by
  intro v s hbegun hlive hhold
  have hshares := shares_of_turn hbegun.1 hhold
  have hat : (role Γ).At v s := at_of (by rw [hbegun.1]; exact turn_ne_refused _) hlive hhold
  -- the data socket is not part of the view
  have hsock (live : Bool) (sock : Sockfd) :
      hold { v with live := live } { s with conf := { s.conf with dataSock := sock } } :=
    hold_turn hbegun.1 ⟨hshares.core, hshares.mapped, hshares.counted, hshares.segsize⟩
  unfold startData
  refine sat_conf (sat_ite (fun hne => ?_) fun _ => sat_bind (sat_initUdpSocket hat ?_ ?_))
  · exact sat_pure (.inr ⟨hhold, fun h => absurd h hne, fun _ => .inr trivial⟩)
  · intro sock
    exact sat_setConf (sat_pure (.inr ⟨hsock v.live sock, fun _ => ⟨hlive, hbegun⟩, fun h => absurd rfl h⟩))
  · intro live stat sock hstat
    exact sat_setConf (sat_pure (.inr ⟨hsock live sock, fun h => absurd h hstat, fun _ => .inr trivial⟩))

/-- The receiver keeps its role against any peer. -/
theorem sat_pullPhases {bad : Prop} {opening : Prog Status} (hopening : Opens Γ bad opening) (garbage : SendArgs) (rounds : Nat)
    (hstage : v.stage = .offer) (hlive : v.live = true) :
    (pullPhases Γ garbage rounds opening s).Sat (role Γ).monitor v (Ends Reported bad) := by
  unfold pullPhases
  refine sat_check (sat_pullHandshake garbage hstage hlive) (fun _ _ _ h => .inl h) ?_ ?_
  case refine_2 =>
    intro v s stat hstat hhold hstuck
    exact .inr ⟨hhold, fun h => absurd h hstat, fun _ => hstuck.imp_right False.elim⟩
  intro v s _ hlive hhold hbegun
  refine sat_check (hopening v s hbegun hlive hhold) (fun _ _ _ h => .inl h) ?_ ?_
  case refine_2 =>
    intro v s stat hstat hhold hstuck
    exact .inr ⟨hhold, fun h => absurd h hstat, fun _ => hstuck⟩
  intro v s _ hlive hhold hbegun
  have hshares := shares_of_turn hbegun.1 hhold
  have hsegsize : calcSegmentSize (if s.conf.chsize ≠ 0 then s.conf.chsize.toNat else s.conf.pchsize.toNat) = segsizeOf v.conf := by
    rw [← hshares.core]
    rfl
  unfold setSegsize
  refine sat_setConf (sat_check (sat_pullTransfer rounds hbegun.1 hlive
    ⟨hshares.core, hshares.mapped, hshares.counted, fun _ => hsegsize⟩ hsegsize) (fun _ _ _ h => .inl h) ?_ ?_)
  case refine_2 =>
    intro v s stat hstat hhold hstuck
    exact .inr ⟨hhold, fun h => absurd h hstat, fun _ => hstuck.imp_right False.elim⟩
  intro v s _ hlive hhold hfinished
  refine (sat_pullVerification garbage hfinished.1 hlive hhold hfinished.2).mono ?_
  intro v s stat h
  exact h.imp_right fun h => ⟨h.1, h.2.1, fun hne => (h.2.2 hne).imp_right False.elim⟩

/-! ## The offer is not refused -/

theorem stage_got (v : View) (b : Bytes) (h : v.stage ≠ .refused) : (got v b).stage ≠ .refused := by
  cases hstage : v.stage <;> simp only [got, hstage, ne_eq, reduceCtorEq, not_false_eq_true]
  case flow => split <;> simp
  case refused => exact absurd hstage h

theorem stage_collected (v : View) (b : Bytes) (h : v.stage ≠ .refused) : (collected v b).stage ≠ .refused := by
  cases hstage : v.stage <;> simp only [collected, hstage, ne_eq, reduceCtorEq, not_false_eq_true]
  case refused => exact absurd hstage h

/-- Only a push while the file is made can refuse, and only one that does not acknowledge. -/
theorem stage_sent (v : View) (s : Proc) (buf : Bytes) (h : v.stage ≠ .refused)
    (hack : v.stage = .making → buf = (packRecvPacket 1 0 0).bytes) : (sent Γ v s buf).stage ≠ .refused := by
  cases hstage : v.stage <;> simp only [sent, hstage, ne_eq, reduceCtorEq, not_false_eq_true]
  case making =>
    rw [if_pos (hack hstage)]
    exact turn_ne_refused _
  case verdict =>
    split
    · exact turn_ne_refused _
    · simp
  case refused => exact absurd hstage h

theorem stage_after (v : View) (c : Call) (r : c.Answer) (h : v.stage ≠ .refused) : (after v c r).stage ≠ .refused := by
  unfold after
  split
  all_goals first
    | exact h
    | (split <;> first | exact h | simp)

theorem stage_next (c : Call) (r : c.Answer) (h : v.stage ≠ .refused)
    (hack : ∀ fd buf, c = .send .stream fd buf → v.stage = .making → buf = (packRecvPacket 1 0 0).bytes) :
    ((role Γ).next v s c r).stage ≠ .refused := by
  refine (role Γ).next_cases (p := fun v => v.stage ≠ .refused) c r h h ?_ ?_ ?_ ?_ (stage_after v c r h)
  · rintro fd buf rfl
    exact stage_sent v s buf h (hack fd buf rfl)
  · intro _ _ _
    exact h
  · intro _ _ b _ _
    exact stage_got v b h
  · intro _ _ _ b _ _
    exact stage_collected v b h

end

end Receiver

end RufShare
