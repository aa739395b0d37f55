import RufShare.Lemmas.Joint

/-!
# Both parties

The sender trusts the order of the control headers alone: it never looks at the sequence of a RECV header, and it counts its tries
apart from the receiver. Whatever the data channel does, whichever calls fail and however the steps of the parties are interleaved,
the two stay at the same chunk but for the one step in which a verdict is on its way, and a file that the sender reports as sent has
in the receiver's copy the same checksums.
-/

namespace RufShare

open Resumption Joint Slice

namespace LockstepAux

section

variable {Γ : Libcrc} {garbage : SendArgs} {rounds rounds' : Nat} {sender receiver : Proc} {p : Pair Proc Call.Answer Status Network}

/-- The configuration of a sender that makes its offer, up to `core`. -/
def offered (s : Proc) : InitConfig := core (Sender.first (Sender.offering s)).conf

/-- Numbers that give the size of the file make an offer that the file bears out. -/
theorem shares_counted (h : ReadyToPush sender) {counts : UInt32 × UInt16}
    (hcounts : calcFileSize counts.1 sender.conf.chsize counts.2 = sender.conf.filec.size) :
    Receiver.Shares (core (Sender.first (Sender.counted sender counts)).conf) (Sender.first (Sender.counted sender counts)) where
  core := rfl
  mapped := ⟨h.isOpen, h.mapped, h.length, hcounts.symm, h.nonempty⟩
  counted := counted_first (core (Sender.counted sender counts).conf)
  segsize := fun hphase => absurd rfl hphase

theorem shares_offered (h : ReadyToPush sender) : Receiver.Shares (offered sender) (Sender.first (Sender.offering sender)) := by
  have hsize := calcFileSize_calcChunkCount h.chsize h.count
  unfold offered Sender.offering
  generalize calcChunkCount sender.conf.filec.size sender.conf.chsize.toNat = counts at hsize ⊢
  exact shares_counted h hsize

theorem seq_first (s : Proc) : ({ core (Sender.first s).conf with seq := 1 } : InitConfig) = core (Sender.first s).conf := rfl

theorem seq_offered (s : Proc) : ({ offered s with seq := 1 } : InitConfig) = offered s := seq_first (Sender.offering s)

/-- The views fit, and the sender's has the offer but for its counter. -/
def Started (Γ : Libcrc) (sender : Proc) (v : Sender.View) (v' : Receiver.View) (w : Network) : Prop :=
  Fits Γ v v' w ∧ ({ v.conf with seq := 1 } : InitConfig) = offered sender

/-- The parties begin with views that fit. -/
theorem joint_start (h : ReadyToPush sender) :
    (parties Γ garbage rounds rounds' startData startData sender receiver .empty).Joint (Sender.role Γ).monitor
      (Receiver.role Γ).monitor (Sender.Ends Sender.Verified) (Receiver.Ends Receiver.Reported True) (Started Γ sender) := by
  refine ⟨{ stage := .offer, live := true, conf := offered sender },
    { stage := .offer, live := true, length := none, conf := receiver.conf }, ⟨.inr ⟨[], [], .offer ?_, ?_, ?_, rfl⟩, seq_offered sender⟩, ?_, ?_⟩
  · rw [← seq_offered sender]
  · exact Carries.nil (room_pos _ _)
  · exact Carries.nil (by decide)
  · exact Sender.sat_pushPhases rounds rfl rfl (shares_offered h)
  · exact Receiver.sat_pullPhases Receiver.opens_startData garbage rounds' rfl rfl

theorem joint_parties (h : ReadyToPush sender) (hp : Reachable Γ garbage rounds rounds' sender receiver p) :
    p.Joint (Sender.role Γ).monitor (Receiver.role Γ).monitor (Sender.Ends Sender.Verified)
      (Receiver.Ends Receiver.Reported True) (Started Γ sender) := by
  refine Pair.Joint.reaches ?_ ?_ (joint_start h) hp
  · intro v v' w b s e r w' ⟨hfits, hconf⟩ _ hguar ha
    obtain ⟨hlive, hguar⟩ := hguar rfl
    exact ⟨fun _ => trivial, hfits.left hlive hguar ha, (Sender.conf_next v s e r).trans hconf⟩
  · intro v v' w b s e r w' ⟨hfits, hconf⟩ hhold hguar ha
    by_cases hrefused : v'.stage = .refused
    · have hfree : (Receiver.role Γ).free v' = true := decide_eq_true hrefused
      have hnext : (Receiver.role Γ).monitor.next v' s e r = v' := if_pos hfree
      rw [hnext]
      exact ⟨fun hbound => absurd (hfree.symm.trans hbound) (by decide), hfits.rightFree hrefused ha, hconf⟩
    · have hbound : (Receiver.role Γ).free v' = false := decide_eq_false hrefused
      have hnext : (Receiver.role Γ).monitor.next v' s e r = (Receiver.role Γ).next v' s e r :=
        if_neg (by rw [hbound]; decide)
      obtain ⟨hlive, hguar⟩ := hguar hbound
      obtain ⟨hrelies, hfits⟩ := hfits.right hlive hrefused (hhold hbound) hguar ha
      rw [hnext]
      exact ⟨fun _ => hrelies, hfits, hconf⟩

/-- The views of the parties between two calls. -/
structure Views (Γ : Libcrc) (sender : Proc) (p : Pair Proc Call.Answer Status Network) (v : Sender.View) (v' : Receiver.View) :
    Prop where
  fits : Fits Γ v v' p.med
  conf : ({ v.conf with seq := 1 } : InitConfig) = offered sender
  left : Sender.hold v p.left.state
  right : v'.stage ≠ .refused → Receiver.hold v' p.right.state
  leftCall : ∀ call, p.left.pending = some call → v.live = true ∧ (Sender.role Γ).guar v p.left.state call
  rightCall : v'.stage ≠ .refused → ∀ call, p.right.pending = some call →
    v'.live = true ∧ (Receiver.role Γ).guar v' p.right.state call
  success : p.left.result = some .success → v.live = true ∧ v.stage = .done true

theorem exists_views (h : ReadyToPush sender) (hp : Reachable Γ garbage rounds rounds' sender receiver p) :
    ∃ v v', Views Γ sender p v v' := by
  obtain ⟨l, r, w⟩ := p
  obtain ⟨v, v', ⟨hfits, hconf⟩, hleft, hright⟩ := joint_parties h hp
  have hbound (hrefused : v'.stage ≠ .refused) : (Receiver.role Γ).free v' = false := decide_eq_false hrefused
  refine ⟨v, v', ⟨hfits, hconf, ?_, ?_, ?_, ?_, ?_⟩⟩
  · cases l with
    | ret s stat => exact hleft.1
    | cut s => exact hleft rfl
    | call s e k => exact hleft.1 rfl
  · intro hrefused
    cases r with
    | ret s stat => exact (hright.resolve_left hrefused).1
    | cut s => exact hright (hbound hrefused)
    | call s e k => exact hright.1 (hbound hrefused)
  · intro call hcall
    cases l with
    | ret s stat => cases hcall
    | cut s => cases hcall
    | call s e k =>
      cases hcall
      exact hleft.2.1 rfl
  · intro hrefused call hcall
    cases r with
    | ret s stat => cases hcall
    | cut s => cases hcall
    | call s e k =>
      cases hcall
      exact hright.2.1 (hbound hrefused)
  · intro hsuccess
    cases l with
    | ret s stat =>
      cases hsuccess
      exact hleft.2.1 rfl
    | cut s => cases hsuccess
    | call s e k => cases hsuccess

/-- After the handshake the parties are at the same chunk, or the receiver is one ahead, or all chunks are done. -/
theorem Situation.dealt {c c' : InitConfig} {live : Bool} {stage : Sender.Stage} {stage' : Receiver.Stage} {down up : Bytes}
    (h : Situation Γ c c' live stage stage' down up) (hstage : stage ≠ .offer ∧ stage ≠ .offered) :
    InStep Γ c c' ∨ Ahead Γ c c' ∨ Over Γ c c' := by
  cases h with
  | offer | offerCut => exact absurd rfl hstage.1
  | offered | offerInfo | making | accepted => exact absurd rfl hstage.2
  | answeredAhead hahead | dataAhead hahead => exact .inr (.inl hahead)
  | flow hin | flowed hin | answer hin | answered hin | data hin => exact .inl hin
  | final hover | finalCut hover | finalSent hover | finalInfo hover | report hover | told hover | done hover =>
    exact .inr (.inr hover)

/-- A sender past the handshake has an answer to its offer that accepts it. -/
theorem Views.dealt {v : Sender.View} {v' : Receiver.View} (h : Views Γ sender p v v') (hphase : p.left.state.phase ≠ .handshake) :
    v'.stage ≠ .refused ∧ (v.stage ≠ .offer ∧ v.stage ≠ .offered) ∧ ∃ down up,
      Situation Γ v.conf v'.conf v.live v.stage v'.stage down up ∧ Carries v'.live v.live p.med.down down (room v.stage v'.stage) ∧
      Carries v.live v'.live p.med.up up (PacketType.size .recv) := by
  have hleft := h.left
  have hstage (stage : Sender.Stage) (hstage : stage = .offer ∨ stage = .offered ∨ stage = .declined) : v.stage ≠ stage := by
    intro heq
    unfold Sender.hold at hleft
    rcases hstage with rfl | rfl | rfl
    · rw [heq] at hleft
      exact hphase hleft.2
    · rw [heq] at hleft
      exact hphase hleft.2
    · rw [heq] at hleft
      exact hphase hleft
  rcases h.fits with ⟨_, hdeclined | ⟨hoffered, _⟩⟩ | ⟨down, up, hsit, hdown, hup, _⟩
  · exact absurd hdeclined (hstage _ (.inr (.inr rfl)))
  · exact absurd hoffered (hstage _ (.inr (.inl rfl)))
  · refine ⟨?_, ⟨hstage _ (.inl rfl), hstage _ (.inr (.inl rfl))⟩, down, up, hsit, hdown, hup⟩
    intro hrefused
    rw [hrefused] at hsit
    have hturn (c : InitConfig) : (Receiver.Stage.refused : Receiver.Stage) ≠ Receiver.turn c := (Receiver.turn_ne_refused c).symm
    generalize v.stage = stage, v.live = live at hsit
    cases hsit with
    | accepted _ _ _ h => exact hturn _ h
    | answeredAhead _ h => exact hturn _ h
    | dataAhead _ h => exact hturn _ h
    | answered _ _ h => cases h
    | data _ _ h => cases h

/-- Past the handshake the views have the configurations of the parties. -/
theorem Views.shares {v : Sender.View} {v' : Receiver.View} (h : Views Γ sender p v v') (hphase : p.left.state.phase ≠ .handshake) :
    Receiver.Shares v.conf p.left.state ∧ Receiver.Shares v'.conf p.right.state := by
  obtain ⟨hrefused, hstage, down, up, hsit, _⟩ := h.dealt hphase
  have hleft := h.left
  have hright := h.right hrefused
  obtain ⟨stage, live, conf⟩ := v
  obtain ⟨stage', live', len, conf'⟩ := v'
  dsimp only at hstage hsit hleft hright
  have hturn (hturn : stage' = Receiver.turn conf') : Receiver.Shares conf' p.right.state :=
    Receiver.shares_of_turn (v := ⟨stage', live', len, conf'⟩) hturn hright
  have hworking {crc : UInt32} {tries : Nat} (hwork : Working crc tries stage') : Receiver.Shares conf' p.right.state := by
    cases hwork <;> exact hright.1
  cases hsit with
  | offer | offerCut => exact absurd rfl hstage.1
  | offered | offerInfo | making | accepted => exact absurd rfl hstage.2
  | answeredAhead _ hstage' | dataAhead _ hstage' => exact ⟨hleft.1, hturn hstage'⟩
  | answered _ _ hwork | data _ _ hwork => exact ⟨hleft.1, hworking hwork⟩
  | _ => exact ⟨hleft.1, hright.1⟩

end

end LockstepAux

namespace LockstepAux

section

variable {Γ : Libcrc} {c c' : InitConfig} {s s' : Proc}

theorem addressable_of_shares (h : Receiver.Shares c s) (ha : Addressable s.conf) : Addressable c := by
  rw [← h.core]
  exact ⟨ha.count, ha.product⟩

/-- Chunks whose checksums agree in the views have the same checksums in the files. -/
theorem crc_of_shares (h : Receiver.Shares c s) (h' : Receiver.Shares c' s') {chunk : ChunkContext}
    (hcrc : calcChunkCrc32 Γ c'.filec chunk = calcChunkCrc32 Γ c.filec chunk) :
    calcChunkCrc32 Γ s'.conf.filec chunk = calcChunkCrc32 Γ s.conf.filec chunk := by
  unfold calcChunkCrc32 at hcrc ⊢
  rw [h.buf_eq, h'.buf_eq, hcrc]

end

end LockstepAux

/-! ## A run of both parties -/

namespace LockstepRun

/-- A sender of one byte in chunks of two. -/
def pusher : Proc := ⟨{ Sample.receiver with chsize := 2, filec := { Sample.receiver.filec with
  mfile := { file := some 5, isOpen := true, size := 1, pos := 0, buf := [7] }, size := 1 } }, .setup⟩

def puller : Proc := ⟨Sample.receiver, .setup⟩

theorem ready_pusher : ReadyToPush pusher := ⟨rfl, rfl, rfl, by decide, by decide, by decide⟩

/-- Every call succeeds, and the data channel delivers that byte. -/
def answer (side : Side) (w : Network) (s : Proc) (c : Call) : c.Answer × Network :=
  match side, c with
  | .left, .send .stream _ buf => (some buf.length, { w with down := w.down ++ buf })
  | .right, .send .stream _ buf => (some buf.length, { w with up := w.up ++ buf })
  | .left, .recv .stream _ size peek =>
    (some ⟨w.up.take size, List.length_take_le _ _⟩, if peek then w else { w with up := w.up.drop (w.up.take size).length })
  | .right, .recv .stream _ size peek =>
    (some ⟨w.down.take size, List.length_take_le _ _⟩, if peek then w else { w with down := w.down.drop (w.down.take size).length })
  | .right, .recv .dgram _ size _ => (some ⟨List.replicate size 7, by simp⟩, w)
  | .right, .ftruncate _ size => (true, { w with disk := some size })
  | .right, .fstat _ => (w.disk, w)
  | _, c => ((Sample.env [] s c).1, w)

theorem takes_take (b : Bytes) (size : Nat) (peek : Bool) :
    Takes peek (some (b.take size)) b (if peek then b else b.drop (b.take size).length) := ⟨List.take_prefix size b, rfl⟩

theorem network_answer (side : Side) (b : Option Call) (w : Network) (s : Proc) (c : Call) :
    network side b w s c (answer side w s c).1 (answer side w s c).2 := by
  have hputs (buf q : Bytes) : Puts buf (some buf.length) q (q ++ buf) := ⟨Nat.le_refl _, by rw [List.take_length]⟩
  cases side with
  | left =>
    cases c with
    | send ty fd buf =>
      cases ty with
      | stream => exact ⟨hputs buf w.down, rfl, rfl⟩
      | dgram => rfl
    | recv ty fd size peek =>
      cases ty with
      | stream =>
        cases peek with
        | false => exact ⟨takes_take w.up size false, rfl, rfl⟩
        | true => exact ⟨takes_take w.up size true, rfl, rfl⟩
      | dgram => rfl
    | _ => rfl
  | right =>
    cases c with
    | send ty fd buf =>
      cases ty with
      | stream => exact ⟨hputs buf w.up, rfl, rfl⟩
      | dgram => rfl
    | recv ty fd size peek =>
      cases ty with
      | stream =>
        cases peek with
        | false => exact ⟨takes_take w.down size false, rfl, rfl⟩
        | true => exact ⟨takes_take w.down size true, rfl, rfl⟩
      | dgram => rfl
    | fstat file =>
      obtain ⟨down, up, disk⟩ := w
      cases disk with
      | none => rfl
      | some size => exact ⟨rfl, rfl⟩
    | _ => rfl

def start : Pair Proc Call.Answer Status Network :=
  parties Sample.zero Sample.blank 2 2 startData startData pusher puller .empty

/-- Where the parties are after these steps. -/
def after (sides : List Side) : Option (Pair Proc Call.Answer Status Network) :=
  start.follow answer (fun _ _ _ _ => true) sides

theorem reachable_after (sides : List Side) {P : Pair Proc Call.Answer Status Network → Bool} (h : (after sides).map P = some true) :
    ∃ p, Reachable Sample.zero Sample.blank 2 2 pusher puller p ∧ P p = true := by
  obtain ⟨p, hp, hP⟩ := Option.map_eq_some_iff.1 h
  exact ⟨p, Pair.reaches_follow (fun side b w s c _ => network_answer side b w s c) hp, hP⟩

/-- The sender is about to push the FLOW header. -/
def announcing : List Side := List.replicate 3 .left ++ List.replicate 13 .right ++ List.replicate 9 .left

/-- The receiver has accepted the chunk and the sender has not read its verdict. -/
def judged : List Side :=
  announcing ++ [.left] ++ List.replicate 10 .right ++ List.replicate 6 .left ++ List.replicate 9 .right

/-- The sender has reported the file as sent. -/
def sent : List Side := judged ++ List.replicate 6 .left ++ List.replicate 9 .right ++ List.replicate 3 .left

end LockstepRun

/-- What it means that the receiver has accepted the chunk `c` is at: the receiver has gone on, no other header is on its way behind
the verdict, and the chunk as the receiver has it has the checksum of the sender's. -/
structure Settled (Γ : Libcrc) (c c' : InitConfig) (rest : Bytes) : Prop where
  seq : c'.seq = c.seq + 1
  last : rest.length < PacketType.size .recv
  stored : Addressable c → calcChunkCrc32 Γ c'.filec (chunkContext c) = calcChunkCrc32 Γ c.filec (chunkContext c)

open LockstepAux

section

variable {Γ : Libcrc} {garbage : SendArgs} {rounds rounds' : Nat} {sender receiver : Proc} {p : Pair Proc Call.Answer Status Network}

/-- From the first FLOW header on the receiver is at the sender's chunk or at the one after it. -/
theorem seq_lockstep (h : ReadyToPush sender) (hp : Reachable Γ garbage rounds rounds' sender receiver p)
    (hphase : p.left.state.phase ≠ .handshake) :
    (p.right.state.conf.seq = p.left.state.conf.seq ∨ p.right.state.conf.seq = p.left.state.conf.seq + 1) ∧
    (p.left.state.conf.chcount.toNat < 2 ^ 32 - 1 →
      p.left.state.conf.seq ≤ p.right.state.conf.seq ∧
      p.right.state.conf.seq.toNat ≤ p.left.state.conf.seq.toNat + 1) := by
  obtain ⟨v, v', hviews⟩ := exists_views h hp
  obtain ⟨_, hstage, _, _, hsit, _⟩ := hviews.dealt hphase
  obtain ⟨hleft, hright⟩ := hviews.shares hphase
  have hcount : p.left.state.conf.chcount = v.conf.chcount := by
    rw [← hleft.core]
    rfl
  rw [hleft.seq_eq, hright.seq_eq, hcount]
  rcases Situation.dealt hsit hstage with hin | hahead | hover
  · rw [hin.seq]
    exact ⟨.inl rfl, fun _ => ⟨UInt32.le_refl _, Nat.le_succ _⟩⟩
  · rw [hahead.seq]
    refine ⟨.inr rfl, fun hlt => ?_⟩
    have hle := UInt32.le_iff_toNat_le.1 hahead.le
    have hnext : (v.conf.seq + 1).toNat = v.conf.seq.toNat + 1 := by
      rw [UInt32.toNat_add]
      exact Nat.mod_eq_of_lt (by change v.conf.seq.toNat + 1 < 2 ^ 32; omega)
    rw [UInt32.le_iff_toNat_le, hnext]
    exact ⟨Nat.le_succ _, Nat.le_refl _⟩
  · rw [hover.seq]
    exact ⟨.inl rfl, fun _ => ⟨UInt32.le_refl _, Nat.le_succ _⟩⟩

open LockstepRun in
theorem seq_lockstep_judged : ∃ p, Reachable Sample.zero Sample.blank 2 2 pusher puller p ∧ p.left.state.conf.seq = 1 ∧
    p.right.state.conf.seq = 2 ∧ (p.right.state.conf.seq = p.left.state.conf.seq ∨ p.right.state.conf.seq = p.left.state.conf.seq + 1) := by
  obtain ⟨p, hp, hP⟩ := reachable_after judged (P := fun p => decide (p.left.state.phase ≠ .handshake ∧
    p.left.state.conf.seq = 1 ∧ p.right.state.conf.seq = 2)) (by decide +kernel)
  obtain ⟨hphase, hseq, hseq'⟩ := of_decide_eq_true hP
  exact ⟨p, hp, hseq, hseq', (seq_lockstep ready_pusher hp hphase).1⟩

/-- Chunk `n` of a file. -/
def chunkOf (fileSize chsize n : Nat) : ChunkContext :=
  { startPos := (n - 1) * chsize, chunkSize := if n = fileSize / chsize + 1 then fileSize % chsize else chsize }

/-- A copy has the length and the checksums of a sender's file. -/
structure SameChecksums (Γ : Libcrc) (c : InitConfig) (copy : FileContext) : Prop where
  length : copy.mfile.buf.length = c.filec.size
  crc16 : calcFileCrc16 Γ copy = calcFileCrc16 Γ c.filec
  crc32 : ∀ n, 1 ≤ n → n ≤ c.filec.size / c.chsize.toNat + 1 →
    calcChunkCrc32 Γ copy (chunkOf c.filec.size c.chsize.toNat n) = calcChunkCrc32 Γ c.filec (chunkOf c.filec.size c.chsize.toNat n)

/-- The checksum tells the chunk in the two files apart. -/
def Distinguishes (Γ : Libcrc) (filec copy : FileContext) (chunk : ChunkContext) : Prop :=
  calcChunkCrc32 Γ copy chunk = calcChunkCrc32 Γ filec chunk →
    slice copy.mfile.buf chunk.startPos chunk.chunkSize = slice filec.mfile.buf chunk.startPos chunk.chunkSize

namespace LockstepAux

/-- The numbers of an offer are those of division. -/
theorem toNat_offered (h : ReadyToPush sender) :
    (offered sender).chcount.toNat = sender.conf.filec.size / sender.conf.chsize.toNat + 1 ∧
    (offered sender).pchsize.toNat = sender.conf.filec.size % sender.conf.chsize.toNat := by
  have hcount := toNat_chunkCount h.count
  have hpart := toNat_partialSize h.chsize h.count
  unfold offered Sender.offering
  generalize calcChunkCount sender.conf.filec.size sender.conf.chsize.toNat = counts at hcount hpart ⊢
  exact ⟨hcount, hpart⟩

/-- The offer is about the sender's file. -/
theorem fields_counted (s : Proc) (counts : UInt32 × UInt16) :
    (core (Sender.first (Sender.counted s counts)).conf).chsize = s.conf.chsize ∧
    (core (Sender.first (Sender.counted s counts)).conf).filec.size = s.conf.filec.size ∧
    (core (Sender.first (Sender.counted s counts)).conf).filec.mfile.buf = s.conf.filec.mfile.buf := ⟨rfl, rfl, rfl⟩

theorem fields_offered (s : Proc) : (offered s).chsize = s.conf.chsize ∧ (offered s).filec.size = s.conf.filec.size ∧
    (offered s).filec.mfile.buf = s.conf.filec.mfile.buf := fields_counted s _

theorem chunkRange_eq_chunkOf (c : InitConfig) (fileSize : Nat) (hsmall : fileSize / c.chsize.toNat * c.chsize.toNat < 2 ^ 32)
    (hcount : c.chcount.toNat = fileSize / c.chsize.toNat + 1) (hpart : c.pchsize.toNat = fileSize % c.chsize.toNat) {n : Nat}
    (hn : 1 ≤ n) (hle : n ≤ c.chcount.toNat) : chunkRange c n = chunkOf fileSize c.chsize.toNat n := by
  have hstart := TilingAux.startPos_of_lt hsmall hcount hn hle
  have hsize := TilingAux.chunkSize_chunkRange c (Nat.lt_of_le_of_lt hle c.chcount.toNat_lt)
  rw [hcount, hpart] at hsize
  exact congrArg₂ ChunkContext.mk hstart hsize

end LockstepAux

end

end RufShare
