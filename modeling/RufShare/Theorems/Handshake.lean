import RufShare.Lemmas.Chunks
import RufShare.Lemmas.Delivery

/-!
# The handshake

The two parties' handshakes against each other: what one reads is what the other has sent. The receiver tells the sender whether it
could make the file, but returns `SUCCESS` when it could not: the parties agree exactly when every call of `start_file_stream`
goes well.
-/

namespace RufShare

open Resumption

/-- A call on the control channel, or for it. -/
def Call.OfControl : Call → Prop
  | .malloc _ => True
  | .poll .stream _ _ _ => True
  | .send .stream _ _ => True
  | .recv .stream _ _ _ => True
  | _ => False

/-- The calls that make a file of `size` bytes and map it go well; `fstatvfs` finds more room than that. -/
def FileMade (size : Nat) : Event → Prop
  | ⟨_, .fopen _ _, r⟩ => r.isSome
  | ⟨_, .fstatvfs _, r⟩ => r.elim False (fun avail => size < avail.1 * avail.2 % 2 ^ 64)
  | ⟨_, .ftruncate _ _, r⟩ => r = true
  | ⟨_, .fstat _, r⟩ => r.isSome
  | ⟨_, .mmap _ _, r⟩ => r.isSome
  | _ => True

namespace HandshakeAux

/-- The state after a change to the mapped file. -/
def withFile (s : Proc) (mfile : MFile) (name : Bytes) : Proc :=
  { s with conf := { s.conf with filec := { s.conf.filec with mfile := mfile, name := name } } }

theorem after_createFile (path : Bytes) {size : Nat} (hsize : size ≠ 0) (s : Proc) :
    (createFile path size s).After (fun tr s' stat => s' = s ∧ (stat = .success ↔ ∀ e ∈ tr, FileMade size e) ∧
      tr.filterMap sentBuf = []) := by
  unfold createFile
  refine after_syscall fun opened => ?_
  cases opened with
  | none => exact ⟨rfl, by simp [FileMade], rfl⟩
  | some file =>
    refine after_ite (fun h => absurd h hsize) (fun _ => after_syscall fun info => ?_)
    cases info with
    | none => exact after_syscall fun closed => ⟨rfl, by simp [FileMade], rfl⟩
    | some avail =>
      refine after_ite (fun h => after_syscall fun closed => ⟨rfl, by simpa [FileMade] using h, rfl⟩) (fun h => ?_)
      refine after_syscall fun truncated => ?_
      cases truncated with
      | false => exact after_ite (fun _ => after_syscall fun closed => ⟨rfl, by simp [FileMade], rfl⟩) nofun
      | true => exact after_ite nofun (fun _ => ⟨rfl, by simpa [FileMade] using h, rfl⟩)

theorem after_mfopen (path : Bytes) (size : Nat) (s : Proc) :
    (mfopen path .rplus s).After (fun tr s' mfile => s' = s ∧ (mfile.isOpen = true ↔ ∀ e ∈ tr, FileMade size e) ∧
      tr.filterMap sentBuf = []) := by
  unfold mfopen
  refine after_syscall fun opened => ?_
  cases opened with
  | none => exact ⟨rfl, by simp [FileMade], rfl⟩
  | some file =>
    refine after_syscall fun info => ?_
    cases info with
    | none => exact after_syscall fun closed => ⟨rfl, by simp [FileMade], rfl⟩
    | some stSize =>
      refine after_syscall fun mapped => ?_
      cases mapped with
      | none => exact after_syscall fun closed => ⟨rfl, by simp [FileMade], rfl⟩
      | some buf => exact ⟨rfl, by simp [FileMade], rfl⟩

/-- `start_file_stream` succeeds exactly when its calls go well, and changes the mapped file only. -/
theorem after_startFileStream (path : Bytes) (s : Proc) (hsize : s.conf.filec.size ≠ 0) :
    (startFileStream path .mwr s).After (fun tr s' stat => (∃ mfile name, s' = withFile s mfile name) ∧
      (stat = .success ↔ ∀ e ∈ tr, FileMade s.conf.filec.size e) ∧ tr.filterMap sentBuf = []) := by
  unfold startFileStream
  refine after_bind_of (after_conf (after_createFile path hsize s)) ?_
  intro tr s₁ stat h
  obtain ⟨rfl, hmade, hsent⟩ := h
  refine after_ite (fun hne => ?_) (fun hstat => ?_)
  · refine after_pure ⟨⟨s₁.conf.filec.mfile, s₁.conf.filec.name, rfl⟩, ?_⟩
    rw [List.append_nil]
    exact ⟨hmade, hsent⟩
  have hall := hmade.1 (Decidable.not_not.1 hstat)
  refine after_bind_of (after_mfopen path s₁.conf.filec.size s₁) ?_
  intro tr' s₂ mfile h
  obtain ⟨rfl, hopen, hsent'⟩ := h
  have hsent'' : (tr ++ (tr' ++ [])).filterMap sentBuf = [] := by
    rw [List.append_nil, List.filterMap_append, hsent, hsent']
    rfl
  have hiff : mfile.isOpen = true ↔ ∀ e ∈ tr ++ (tr' ++ []), FileMade s₂.conf.filec.size e := by
    rw [List.append_nil, List.forall_mem_append, hopen]
    exact ⟨fun h => ⟨hall, h⟩, fun h => h.2⟩
  refine after_ite (fun hclosed => ?_) (fun hopened => ?_)
  · refine ⟨⟨s₂.conf.filec.mfile, s₂.conf.filec.name, rfl⟩, ?_, hsent''⟩
    rw [← hiff]
    exact ⟨nofun, fun h => by rw [h] at hclosed; nomatch hclosed⟩
  · refine ⟨⟨mfile, sstrncpy _ maxFileNameSize, rfl⟩, ?_, hsent''⟩
    rw [← hiff]
    exact ⟨fun _ => by simpa using hopened, fun _ => rfl⟩

/-! ## The sender -/

/-- The state with a number of chunks and the size of the last one stored. -/
def withCounts (s : Proc) (counts : UInt32 × UInt16) : Proc :=
  { conf := { s.conf with chcount := counts.1, pchsize := counts.2 }, phase := .handshake }

theorem withCounts_conf (s : Proc) (counts : UInt32 × UInt16) :
    (withCounts s counts).conf.chsize = s.conf.chsize ∧ (withCounts s counts).conf.chcount = counts.1 ∧
      (withCounts s counts).conf.pchsize = counts.2 ∧ (withCounts s counts).conf.filec = s.conf.filec :=
  ⟨rfl, rfl, rfl, rfl⟩

/-- The state the sender offers from. -/
def offering (s : Proc) : Proc := withCounts s (calcChunkCount s.conf.filec.size s.conf.chsize.toNat)

/-- The SEND header of the offer. -/
def offerBytes (s : Proc) : Bytes :=
  (sendArgs (offering s).conf 0).packet.bytes ++ packIntoInfostring (sendArgs (offering s).conf 0).info

/-- The sender whose calls go well has sent its offer; it takes the answer for a refusal exactly when `ack` is zero. -/
theorem after_pushHandshake (s : Proc) :
    (pushHandshake s).After (fun tr s' stat => (∀ e ∈ tr, Succeeded e) → sentStream tr = offerBytes s ∧
      ∀ recv : RecvPacket, recv.type = PacketType.code .recv → Delivers recv.bytes tr →
        s' = { offering s with conf := { (offering s).conf with seq := 1 } } ∧
          stat = if recv.ack = 0 then .zeroack else .success) := by
  unfold pushHandshake
  refine after_enter (after_setConf (after_conf ?_))
  refine after_bind_of (after_pushHeader _ _ _ (offering s)) ?_
  intro tr s₁ stat h
  obtain ⟨rfl, hpushes, hok, hsent⟩ := h
  refine after_ite (fun hne hall => ?_) (fun hstat => ?_)
  · rw [List.append_nil] at hall
    exact absurd (hok.2 hall) hne
  obtain ⟨n, htr⟩ := hsent (Decidable.not_not.1 hstat)
  have hstream : sentStream tr = offerBytes s := by
    rw [htr]
    exact List.append_nil _
  refine after_bind_of ((honest_packetOnly _ .recv _ (offering s) emptyRecv
    (fun packet => convertRecvPacket (.ofBytes packet))).and Tree.after_self) ?_
  intro tr' s₂ got h
  obtain ⟨⟨rfl, hhonest, _⟩, hrun⟩ := h
  -- what the rest of the run needs, stated once for its two ends
  have hrest (hall : ∀ e ∈ tr ++ (tr' ++ []), Succeeded e) : sentStream (tr ++ (tr' ++ [])) = offerBytes s ∧
      ∀ recv : RecvPacket, recv.type = PacketType.code .recv → Delivers recv.bytes (tr ++ (tr' ++ [])) →
        got = (.success, convertRecvPacket recv) := by
    refine ⟨?_, ?_⟩
    · rw [List.append_nil, sentStream_append, hstream, sentStream_of_reads hhonest.1, List.append_nil]
    · intro recv ht hd
      have hlong : ∀ e ∈ tr', ¬ShortRecv e := fun e he => not_short_of_succeeded (hall e (by simp [he]))
      have hd' := Delivers.of_pushes hpushes hd
      rw [← List.append_nil recv.bytes] at hd'
      exact ((readsWhole_pullRecvHeader _ emptyRecv _ (offering s) recv [] ht).of_run hrun hhonest.1 hlong hd').2.1
  refine after_ite (fun hne hall => ⟨(hrest hall).1, ?_⟩) (fun _ => after_setConf (after_pure fun hall => ⟨(hrest hall).1, ?_⟩))
  · intro recv ht hd
    rw [(hrest hall).2 recv ht hd] at hne
    exact absurd rfl hne
  · intro recv ht hd
    rw [(hrest hall).2 recv ht hd]
    exact ⟨rfl, rfl⟩

/-! ## The receiver -/

/-- The calls of an exchange of headers make no file. -/
theorem fileMade_of_ofControl {size : Nat} {e : Event} (h : e.call.OfControl) : FileMade size e := by
  obtain ⟨s, c, r⟩ := e
  cases c <;> first | trivial | exact h.elim

theorem ofControl_of_reads {c : Call} (h : Reads c) : c.OfControl := by
  cases c with
  | poll ty fd ev timeout => cases ty <;> cases ev <;> first | trivial | exact h.elim
  | recv ty fd size peek => cases ty <;> first | trivial | exact h.elim
  | _ => exact h.elim

theorem ofControl_of_pushes {c : Call} (h : c.Pushes) : c.OfControl := by
  cases c with
  | malloc size => trivial
  | poll ty fd ev timeout => cases ty <;> cases ev <;> first | trivial | exact h.elim
  | send ty fd buf => cases ty <;> first | trivial | exact h.elim
  | _ => exact h.elim

/-- What the receiver keeps of an offer. -/
def Holds (c : InitConfig) (offer : SendPacket) : Prop :=
  c.chsize = offer.chunkSize ∧ c.pchsize = offer.partialChunkSize ∧ c.chcount = offer.chunkCount ∧ c.seq = 1 ∧
    c.filec.size = calcFileSize offer.chunkCount offer.chunkSize offer.partialChunkSize

/-- The receiver whose control calls go well keeps the offer and returns `SUCCESS`, whether it could make the file or not; its
answer tells which. -/
theorem after_pullHandshake (garbage : SendArgs) (s : Proc) (sent : SendArgs) {offer : SendPacket} {size : Nat}
    (ht : sent.packet.type = PacketType.code .send) (hoffer : convertSendPacket sent.packet = offer) (hsize : size ≠ 0)
    (hcalc : calcFileSize offer.chunkCount offer.chunkSize offer.partialChunkSize = size) :
    (pullHandshake garbage s).After (fun tr s' stat => (∀ e ∈ tr, e.call.OfControl → Succeeded e) →
      Delivers (sent.packet.bytes ++ packIntoInfostring sent.info) tr →
        stat = .success ∧ Holds s'.conf offer ∧
          ∃ ack, sentStream tr = (packRecvPacket ack 0 0).bytes ∧ (ack = 0 ∨ ack = 1) ∧
            (ack = 1 ↔ ∀ e ∈ tr, FileMade size e)) := by
  unfold pullHandshake
  refine after_enter (after_conf ?_)
  refine after_bind_of ((honest_packetInfostr _ .send _ { s with phase := .handshake } garbage (fun packet infostr =>
    { packet := convertSendPacket (.ofBytes packet), info := unpackFromInfostring infostr garbage.info })).and
      Tree.after_self) ?_
  intro tr s₁ got h
  obtain ⟨⟨rfl, hhonest, _⟩, hrun⟩ := h
  have hmade : ∀ e ∈ tr, FileMade size e := fun e he => fileMade_of_ofControl (ofControl_of_reads (hhonest.1 e he))
  -- what was read, whatever the rest of the run is
  have hread (rest : List Event) (hall : ∀ e ∈ tr ++ rest, e.call.OfControl → Succeeded e)
      (hd : Delivers (sent.packet.bytes ++ packIntoInfostring sent.info) (tr ++ rest)) :
      got = (.success, { packet := offer, info := unpackFromInfostring (packIntoInfostring sent.info) garbage.info }) := by
    have hlong : ∀ e ∈ tr, ¬ShortRecv e := fun e he =>
      not_short_of_succeeded (hall e (List.mem_append_left _ he) (ofControl_of_reads (hhonest.1 e he)))
    rw [← List.append_nil (sent.packet.bytes ++ packIntoInfostring sent.info)] at hd
    rw [← hoffer]
    exact ((readsWhole_pullSendHeader _ garbage _ _ sent [] ht).of_run hrun hhonest.1 hlong hd).2.1
  refine after_ite (fun hne => after_pure fun hall hd => ?_) (fun _ => ?_)
  · rw [hread _ hall hd] at hne
    exact absurd rfl hne
  have hvalid : ¬(!isValidSendHeader got.2.packet) = true := by simp [isValidSendHeader]
  refine after_ite (fun h => absurd h hvalid) (fun _ => after_setConf (after_conf ?_))
  by_cases hgot : got = (.success, { packet := offer,
                                     info := unpackFromInfostring (packIntoInfostring sent.info) garbage.info })
  case neg => exact Tree.after_iff.2 fun tr' s' stat _ hall hd => absurd (hread tr' hall hd) hgot
  subst hgot
  refine after_bind_of (after_startFileStream _ _ (by rw [← hcalc] at hsize; exact hsize)) ?_
  intro tr₁ s₂ made h
  obtain ⟨⟨mfile, name, rfl⟩, hstat, hsent⟩ := h
  refine after_bind_of (after_pushHeader _ _ _ _) ?_
  intro tr₂ s₃ stat h
  obtain ⟨rfl, hpushes, hok, hpushed⟩ := h
  refine after_ite (fun hne => after_pure fun hall _ => ?_) (fun hsucc => after_setConf (after_pure fun _ _ => ?_))
  · refine absurd (hok.2 fun e he => hall e ?_ (ofControl_of_pushes (hpushes e he))) hne
    simp [he]
  obtain ⟨n, htr₂⟩ := hpushed (Decidable.not_not.1 hsucc)
  refine ⟨Decidable.not_not.1 hsucc, ⟨rfl, rfl, rfl, rfl, rfl⟩, if made = .success then 1 else 0, ?_, ?_, ?_⟩
  · have h₁ : sentStream tr = [] := sentStream_of_reads hhonest.1
    have h₂ : sentStream tr₁ = [] := by rw [sentStream, hsent]; rfl
    rw [sentStream_append, sentStream_append, h₁, h₂, htr₂]
    rfl
  · split
    · exact .inr rfl
    · exact .inl rfl
  · have hall : (∀ e ∈ tr ++ (tr₁ ++ (tr₂ ++ [])), FileMade size e) ↔ made = .success := by
      rw [hstat, List.append_nil, List.forall_mem_append, List.forall_mem_append]
      refine ⟨fun h => ?_, fun h => ⟨hmade, ?_, fun e he => fileMade_of_ofControl (ofControl_of_pushes (hpushes e he))⟩⟩
      · rw [← hcalc] at h
        exact h.2.1
      · rw [← hcalc]
        exact h
    rw [hall]
    split <;> simp_all

/-- A SEND header, as the receiver reads it. -/
def offered (c : InitConfig) (crc : UInt16) : SendPacket :=
  { type := PacketType.code .send, pad0 := 0, chunkSize := c.chsize, chunkCount := c.chcount,
    partialChunkSize := c.pchsize, crc := crc }

theorem convertSendPacket_sendArgs (c : InitConfig) (crc : UInt16) :
    convertSendPacket (sendArgs c crc).packet = offered c crc := by
  simp [convertSendPacket, sendArgs, packSendPacket, offered]

theorem calcFileSize_offered (c : InitConfig) (crc : UInt16) :
    calcFileSize (offered c crc).chunkCount (offered c crc).chunkSize (offered c crc).partialChunkSize =
      calcFileSize c.chcount c.chsize c.pchsize := by
  have hcnt : (offered c crc).chunkCount = c.chcount := rfl
  have hch : (offered c crc).chunkSize = c.chsize := rfl
  have hpch : (offered c crc).partialChunkSize = c.pchsize := rfl
  rw [hcnt, hch, hpch]

theorem calcFileSize_offering {s : Proc} (hchsize : 1 ≤ s.conf.chsize.toNat)
    (hcount : s.conf.filec.size / s.conf.chsize.toNat < 2 ^ 32 - 1) :
    calcFileSize (offering s).conf.chcount (offering s).conf.chsize (offering s).conf.pchsize = s.conf.filec.size := by
  obtain ⟨hch, hcnt, hpch, _⟩ := withCounts_conf s (calcChunkCount s.conf.filec.size s.conf.chsize.toNat)
  rw [offering, hch, hcnt, hpch]
  exact calcFileSize_calcChunkCount hchsize hcount

end HandshakeAux

/-- The `ack` of the RECV header a run has pushed. -/
def pushedAck (tr : List Event) : UInt8 := (convertRecvPacket (.ofBytes (sentStream tr))).ack

/-- What the two parties of a handshake are to agree on: whether there is a transfer, and its parameters. -/
structure HandshakeAgreement (sender receiver : Proc) (sent received : Status) (ack : UInt8) : Prop where
  receiver_iff : received = .success ↔ ack = 1
  sender_iff : ack = 1 ↔ sent = .success
  parameters : sent = .success → received = .success →
    receiver.conf.chsize = sender.conf.chsize ∧ receiver.conf.pchsize = sender.conf.pchsize ∧
    receiver.conf.chcount = sender.conf.chcount ∧ sender.conf.seq = 1 ∧ receiver.conf.seq = 1 ∧
    (setSegsize receiver).state.conf.segsize = (setSegsize sender).state.conf.segsize ∧
    receiver.conf.filec.size = sender.conf.filec.size

/-- A receiver that has kept the offer agrees with the sender that was told `ack = 1`. -/
theorem HandshakeAux.agreement_of_holds {o receiver : Proc} (hholds : HandshakeAux.Holds receiver.conf (HandshakeAux.offered o.conf 0))
    (hcalc : calcFileSize o.conf.chcount o.conf.chsize o.conf.pchsize = o.conf.filec.size) :
    HandshakeAgreement { o with conf := { o.conf with seq := 1 } } receiver .success .success 1 := by
  obtain ⟨hch, hpch, hcnt, hseq, hfs⟩ := hholds
  rw [HandshakeAux.calcFileSize_offered] at hfs
  refine ⟨by simp, by simp, fun _ _ => ⟨hch, hpch, hcnt, rfl, hseq, ?_, hfs.trans hcalc⟩⟩
  have hseg (s : Proc) : (setSegsize s).state.conf.segsize =
      calcSegmentSize (if s.conf.chsize ≠ 0 then s.conf.chsize.toNat else s.conf.pchsize.toNat) := rfl
  rw [hseg, hseg, hch, hpch]
  rfl

open HandshakeAux in
/-- When all control calls go well the parties agree exactly when the calls of the receiver's `start_file_stream` go well too and
the file system has room for the file: else the receiver has pushed `ack = 0`, the sender gives up, and the receiver goes on. -/
theorem handshake_agreement_iff (garbage : SendArgs) (sp sq : Proc) (hsize : 1 ≤ sp.conf.filec.size)
    (hchsize : 1 ≤ sp.conf.chsize.toNat) (hcount : sp.conf.filec.size / sp.conf.chsize.toNat < 2 ^ 32 - 1)
    {trp trq : List Event} {sp' sq' : Proc} {statp statq : Status}
    (hp : Run (pushHandshake sp) trp sp' statp) (hq : Run (pullHandshake garbage sq) trq sq' statq)
    (hokp : ∀ e ∈ trp, Succeeded e) (hokq : ∀ e ∈ trq, e.call.OfControl → Succeeded e)
    (hup : Delivers (sentStream trp) trq) (hdown : Delivers (sentStream trq) trp) :
    HandshakeAgreement sp' sq' statp statq (pushedAck trq) ↔ ∀ e ∈ trq, FileMade sp.conf.filec.size e := by
  obtain ⟨hstream, hsender⟩ := Tree.after_iff.1 (after_pushHandshake sp) _ _ _ hp hokp
  rw [hstream, offerBytes] at hup
  have hcalc := calcFileSize_offering hchsize hcount
  have hfilec : (offering sp).conf.filec = sp.conf.filec := (withCounts_conf sp _).2.2.2
  have hcalc' := (calcFileSize_offered (offering sp).conf 0).trans hcalc
  obtain ⟨rfl, hholds, ack, hack, hbit, hmade⟩ := Tree.after_iff.1
    (after_pullHandshake garbage sq (sendArgs (offering sp).conf 0) rfl
      (convertSendPacket_sendArgs _ _) (Nat.ne_of_gt hsize) hcalc') _ _ _ hq hokq hup
  obtain ⟨rfl, rfl⟩ := hsender (packRecvPacket ack 0 0) rfl (by rw [← hack]; exact hdown)
  have hpushed : pushedAck trq = ack := by
    rw [pushedAck, hack, RecvPacket.ofBytes_bytes]
    rfl
  rw [hpushed, ← hmade]
  constructor
  · intro h
    exact h.receiver_iff.1 rfl
  · rintro rfl
    exact agreement_of_holds hholds (by rw [hfilec]; exact hcalc)

/-! ## Two runs -/

namespace HandshakeRun

open HandshakeAux

/-- A sender with a file of one byte and chunks of two. -/
def sender : Proc :=
  { conf := { Sample.receiver with chsize := 2, filec := { Sample.receiver.filec with size := 1 } }, phase := .setup }

def receiver : Proc := { conf := Sample.receiver, phase := .setup }

/-- The outcome of every `fopen` is `opened`; the rest goes well, with all the bytes of the control channel at hand. -/
def opening (opened : Option FileId) (w : Bytes) (s : Proc) : (c : Call) → c.Answer × Bytes
  | .fopen _ _ => (opened, w)
  | c => atOnce w s c

theorem delivers_opening {α : Type} (opened : Option FileId) (w : Bytes) (t : Tree α) :
    Delivers w (play (opening opened) w t).1 := by
  induction t generalizing w with
  | ret s a => trivial
  | cut s => trivial
  | call s c k ih =>
    cases c with
    | poll ty fd ev timeout =>
      cases ty <;> cases ev
      case stream.pollin => exact ⟨rfl, ih _ w⟩
      all_goals exact ih _ w
    | recv ty fd size peek =>
      cases ty with
      | dgram => exact ih _ w
      | stream =>
        refine ⟨⟨w.take size, _⟩, rfl, List.take_prefix _ _, ?_, ?_⟩
        · intro hw hs
          rw [ne_eq, List.take_eq_nil_iff, not_or]
          exact ⟨hs, hw⟩
        · have hdrop : w.drop (w.take size).length = w.drop size := by
            rw [List.length_take]
            rcases Nat.le_total size w.length with h | h
            · rw [Nat.min_eq_left h]
            · rw [Nat.min_eq_right h, List.drop_length, List.drop_eq_nil_of_le h]
          rw [hdrop]
          exact ih _ _
    | _ => exact ih _ w

/-- The bytes of the offer of `sender`. -/
@[irreducible] def offer : Bytes := offerBytes sender

/-- The sender's run when it is answered `ack`. -/
@[irreducible] def senderRun (ack : UInt8) : List Event × Option (Proc × Status) :=
  play (opening none) (packRecvPacket ack 0 0).bytes (pushHandshake sender)

/-- The receiver's run. -/
@[irreducible] def receiverRun (opened : Option FileId) : List Event × Option (Proc × Status) :=
  play (opening opened) offer (pullHandshake Sample.blank receiver)

theorem run_senderRun {ack : UInt8} {s : Proc} {stat : Status} (h : (senderRun ack).2 = some (s, stat)) :
    Run (pushHandshake sender) (senderRun ack).1 s stat := by
  unfold senderRun at h ⊢
  exact run_play (opening none) h

theorem run_receiverRun {opened : Option FileId} {s : Proc} {stat : Status} (h : (receiverRun opened).2 = some (s, stat)) :
    Run (pullHandshake Sample.blank receiver) (receiverRun opened).1 s stat := by
  unfold receiverRun at h ⊢
  exact run_play (opening opened) h

/-- Each run reads what the other has sent. -/
theorem delivers_runs {ack : UInt8} {opened : Option FileId} (hp : sentStream (senderRun ack).1 = offer)
    (hq : sentStream (receiverRun opened).1 = (packRecvPacket ack 0 0).bytes) :
    Delivers (sentStream (senderRun ack).1) (receiverRun opened).1 ∧
      Delivers (sentStream (receiverRun opened).1) (senderRun ack).1 := by
  rw [hp, hq, senderRun, receiverRun]
  generalize pushHandshake sender = t
  exact ⟨delivers_opening opened offer _, delivers_opening none _ t⟩

end HandshakeRun

open HandshakeAux HandshakeRun in
/-- A receiver that can make the file, and the sender that is told so. -/
theorem handshake_agreement_iff_made : ∃ trp trq sp' sq' statp statq, Run (pushHandshake sender) trp sp' statp ∧
    Run (pullHandshake Sample.blank receiver) trq sq' statq ∧ (∀ e ∈ trp, Succeeded e) ∧
    (∀ e ∈ trq, e.call.OfControl → Succeeded e) ∧ Delivers (sentStream trp) trq ∧ Delivers (sentStream trq) trp ∧
    (∀ e ∈ trq, FileMade sender.conf.filec.size e) ∧ HandshakeAgreement sp' sq' statp statq (pushedAck trq) := by
  have hsome : (senderRun 1).2.isSome ∧ (receiverRun (some 5)).2.isSome := by decide +kernel
  obtain ⟨⟨sp', statp⟩, hp⟩ := Option.isSome_iff_exists.1 hsome.1
  obtain ⟨⟨sq', statq⟩, hq⟩ := Option.isSome_iff_exists.1 hsome.2
  have hrunp := run_senderRun hp
  have hrunq := run_receiverRun hq
  have hokp : ∀ e ∈ (senderRun 1).1, Succeeded e := by decide +kernel
  have hokq : ∀ e ∈ (receiverRun (some 5)).1, Succeeded e := by decide +kernel
  have hsentp : sentStream (senderRun 1).1 = offer := by decide +kernel
  have hsentq : sentStream (receiverRun (some 5)).1 = (packRecvPacket 1 0 0).bytes := by decide +kernel
  obtain ⟨hup, hdown⟩ := delivers_runs hsentp hsentq
  obtain ⟨_, _, ack, hack, _, hmade⟩ := Tree.after_iff.1 (after_pullHandshake Sample.blank receiver
    (sendArgs (offering sender).conf 0) rfl (convertSendPacket_sendArgs _ _) Nat.one_ne_zero (by decide +kernel)) _ _ _ hrunq
    (fun e he _ => hokq e he) (by rw [hsentp, offer] at hup; exact hup)
  have hone : ack = 1 := congrArg (fun b => (RecvPacket.ofBytes b).ack) (hack.symm.trans hsentq)
  exact ⟨_, _, sp', sq', statp, statq, hrunp, hrunq, hokp, fun e he _ => hokq e he, hup, hdown, hmade.1 hone,
    (handshake_agreement_iff Sample.blank sender receiver (by decide) (by decide) (by decide) hrunp hrunq hokp
      (fun e he _ => hokq e he) hup hdown).2 (hmade.1 hone)⟩

open HandshakeRun in
/-- A receiver that cannot open the file answers `ack = 0` and returns `SUCCESS`; the sender returns `ZEROACK`. -/
theorem pullHandshake_success_on_refusal : ∃ trp trq sp' sq', Run (pushHandshake sender) trp sp' .zeroack ∧
    Run (pullHandshake Sample.blank receiver) trq sq' .success ∧ (∀ e ∈ trp, Succeeded e) ∧
    (∀ e ∈ trq, e.call.OfControl → Succeeded e) ∧ Delivers (sentStream trp) trq ∧ Delivers (sentStream trq) trp ∧
    pushedAck trq = 0 ∧ ¬HandshakeAgreement sp' sq' .zeroack .success (pushedAck trq) := by
  have hp : (senderRun 0).2.map (·.2) = some .zeroack := by decide +kernel
  have hq : (receiverRun none).2.map (·.2) = some .success := by decide +kernel
  obtain ⟨⟨sp', _⟩, hp, rfl⟩ := Option.map_eq_some_iff.1 hp
  obtain ⟨⟨sq', _⟩, hq, rfl⟩ := Option.map_eq_some_iff.1 hq
  have hsentp : sentStream (senderRun 0).1 = offer := by decide +kernel
  have hsentq : sentStream (receiverRun none).1 = (packRecvPacket 0 0 0).bytes := by decide +kernel
  have hack : pushedAck (receiverRun none).1 = 0 := by decide +kernel
  obtain ⟨hup, hdown⟩ := delivers_runs hsentp hsentq
  refine ⟨_, _, sp', sq', run_senderRun hp, run_receiverRun hq, by decide +kernel, ?_, hup, hdown, hack, ?_⟩
  · have h : ∀ e ∈ (receiverRun none).1, Succeeded e ∨ e.call = .fopen Sample.addrs.filename .wplus := by decide +kernel
    intro e he hc
    rcases h e he with h | h
    · exact h
    · rw [h] at hc
      exact hc.elim
  · intro h
    have hone := h.receiver_iff.1 rfl
    rw [hack] at hone
    exact absurd hone (by decide)

end RufShare
