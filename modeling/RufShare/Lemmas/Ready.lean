import RufShare.Lemmas.Progress

/-!
# No deadlock

On a network on which every call succeeds a party waits only for what the other is about to send. As long as the receiver has
something to do or to read the sender may wait; when the sender has nothing to read, or is done, the receiver can go on.
-/

namespace RufShare

open Resumption Slice

namespace Joint

/-- What a call needs to be answered by a success. -/
def Ready (w : Link) (s : Proc) : Side → Call → Prop
  | .left, .poll .stream _ .pollin _ => w.up ≠ []
  | .left, .recv .stream _ size _ => size ≤ w.up.length
  | .left, .send .dgram _ _ => (chunkBytes s.conf).length = (chunkContext s.conf).chunkSize
  | .right, .poll .stream _ .pollin _ => w.down ≠ []
  | .right, .poll .dgram _ .pollin _ => w.data ≠ []
  | .right, .recv .stream _ size _ => size ≤ w.down.length
  | .right, .recv .dgram _ size _ => ∃ d rest, w.data = d :: rest ∧ size ≤ d.length
  | .right, .fstat _ => w.disk ≠ none
  | _, _ => True

theorem length_blank (size : Nat) : (List.replicate size (0 : UInt8)).length = size := List.length_replicate

theorem length_blank_le (size : Nat) : (List.replicate size (0 : UInt8)).length ≤ size := Nat.le_of_eq (length_blank size)

/-- An answer that is a success. -/
def success : (c : Call) → c.Answer
  | .poll _ _ _ _ => .ready true
  | .send _ _ buf => some buf.length
  | .recv _ _ size _ => some ⟨List.replicate size 0, length_blank_le size⟩
  | .socket _ => some 0
  | .accept _ => some { fd := 0, inet := true, ip := { a := 0, b := 0, c := 0, d := 0 }, port := 0 }
  | .fopen _ _ => some 0
  | .fstatvfs _ => some (1, 2 ^ 64 - 1)
  | .stat _ | .fstat _ => some 0
  | .mmap _ size => some ⟨List.replicate size 0, length_blank size⟩
  | .sysconf => some 1
  | .malloc _ | .calloc _ _ | .setsockopt _ _ | .bind _ _ _ | .connect _ _ _ | .listen _ _ | .close _ | .fclose _ | .ftruncate _ _
  | .munmap _ | .msync _ _ | .pthreadCreate | .pthreadJoin => true

theorem succeeds_success (c : Call) : c.Succeeds (success c) := by
  cases c with
  | send ty fd buf => exact Nat.le_refl _
  | recv ty fd size peek => exact Nat.le_of_eq (length_blank size).symm
  | _ => rfl

/-- A segment can always be sent: the chunk is not altered. -/
theorem exists_conveys (Γ : Libcrc) (t : Nat) {c : InitConfig} (h : (chunkBytes c).length = (chunkContext c).chunkSize) (buf : Bytes)
    (w : Link) : ∃ w', Conveys Γ t c buf w w' := by
  by_cases hcoming : w.coming = []
  · exact ⟨_, chunkBytes c, 0, by rw [if_pos hcoming]; exact ⟨h, .inl ⟨rfl, rfl⟩⟩, rfl⟩
  · exact ⟨_, w.coming, w.spoiled, by rw [if_neg hcoming]; exact ⟨rfl, rfl⟩, rfl⟩

/-- A call that is ready is answered. -/
theorem answers_of_ready (Γ : Libcrc) (t : Nat) {side : Side} {e : Option Call} {w : Link} {s : Proc} {call : Call}
    (h : Ready w s side call) : ∃ r w', reliable Γ t side e w s call r w' := by
  have htake {size : Nat} {q : Bytes} (h : size ≤ q.length) : size ≤ (q.take size).length := by
    rw [List.length_take]
    omega
  cases call with
  | send ty fd buf =>
    cases ty with
    | stream => cases side <;> exact ⟨some buf.length, _, Nat.le_refl _, rfl, rfl⟩
    | dgram =>
      cases side with
      | left =>
        obtain ⟨w', hconveys⟩ := exists_conveys Γ t h buf w
        exact ⟨some buf.length, w', Nat.le_refl _, rfl, hconveys⟩
      | right => exact ⟨some buf.length, w, Nat.le_refl _, rfl⟩
  | recv ty fd size peek =>
    cases ty with
    | stream =>
      cases side with
      | left => exact ⟨some ⟨w.up.take size, List.length_take_le _ _⟩, _, htake h, rfl, rfl⟩
      | right => exact ⟨some ⟨w.down.take size, List.length_take_le _ _⟩, _, htake h, rfl, rfl⟩
    | dgram =>
      cases side with
      | left => exact ⟨_, w, succeeds_success _, rfl⟩
      | right =>
        obtain ⟨d, rest, hd, hsize⟩ := h
        exact ⟨some ⟨d.take size, List.length_take_le _ _⟩, _, htake hsize, d, rest, hd, rfl, rfl⟩
  | poll ty fd event timeout =>
    cases side <;> cases ty <;> cases event <;> first | exact ⟨_, w, rfl, h, rfl⟩ | exact ⟨_, w, rfl, rfl⟩
  | fstatvfs file =>
    cases side with
    | left => exact ⟨_, w, succeeds_success _, rfl⟩
    | right =>
      refine ⟨some (1, 2 ^ 64 - 1), w, rfl, fun hlt => ?_, rfl⟩
      exact hlt
  | ftruncate file size => cases side <;> exact ⟨true, _, rfl, rfl⟩
  | fstat file =>
    cases side with
    | left => exact ⟨_, w, succeeds_success _, rfl⟩
    | right => exact ⟨w.disk, w, Option.isSome_iff_ne_none.2 h, rfl, rfl⟩
  | _ => cases side <;> exact ⟨_, w, succeeds_success _, rfl⟩

/-! ## Regular files -/

/-- The chunks tile the file, none is empty, and neither their counter nor their addresses wrap. -/
structure Regular (c : InitConfig) : Prop where
  tiles : Tiles c c.filec.size
  addressable : Addressable c
  chsize : 0 < c.chsize.toNat
  pchsize : 0 < c.pchsize.toNat

section

variable {Γ : Libcrc} {t : Nat} {c c' : InitConfig} {v : Sender.View} {v' : Receiver.View} {w : Link} {s s' : Proc} {call : Call}

theorem Regular.chunk_pos (h : Regular c) : 0 < (chunkContext c).chunkSize := by
  simp only [chunkContext]
  split
  · exact h.pchsize
  · exact h.chsize

/-- Every chunk starts in the file. -/
theorem Regular.startPos_lt (h : Regular c) (hcounted : Counted c) (hle : c.seq ≤ c.chcount) :
    (chunkContext c).startPos < c.filec.size := by
  have hle := UInt32.le_iff_toNat_le.1 hle
  refine (h.tiles.cover _).2 ⟨c.seq.toNat, one_le_seq hcounted h.addressable, hle, ?_, ?_⟩
  · rw [chunkRange_seq]
  · rw [chunkRange_seq]
    exact Nat.lt_add_of_pos_right h.chunk_pos

/-! ## The sender waits -/

/-- The sender has nothing to read of what it waits for, or is done. -/
def Waits (v : Sender.View) (up : Bytes) : Prop := Sender.reads v (PacketType.size .recv) ∧ up = [] ∨ v.stage = .done true

theorem recvHeader_ne_nil (ack : UInt8) (seq : UInt32) (rest : Bytes) : recvHeader ack seq ++ rest ≠ [] := by
  refine List.append_ne_nil_of_left_ne_nil (List.ne_nil_of_length_pos ?_) rest
  rw [length_recvHeader]
  decide

/-- A call of the sender is ready, or the sender has nothing to read. -/
theorem Smooth.left_ready (h : Smooth Γ t v v' w) (hhold : Sender.hold v s) (hguar : (Sender.role Γ).guar v s call) :
    Ready w s .left call ∨ Sender.reads v (PacketType.size .recv) ∧ w.up = [] := by
  obtain ⟨hsit, _⟩ := h.fits.exact h.live h.live' h.accepted
  have hwaits {size : Nat} (hread : Sender.reads v size) (hup : w.up = []) : Sender.reads v (PacketType.size .recv) ∧ w.up = [] := by
    obtain rfl := size_of_reads hread
    exact ⟨hread, hup⟩
  have hsize {size : Nat} (hread : Sender.reads v size) (hup : w.up ≠ []) : size ≤ w.up.length := by
    obtain rfl := size_of_reads hread
    obtain ⟨stage, live, conf⟩ := v
    obtain ⟨ack, seq, rest, hreply⟩ := hsit.heard hread hup
    rw [hreply, List.length_append, length_recvHeader]
    exact Nat.le_add_right _ _
  cases call with
  | poll ty fd event timeout =>
    cases ty with
    | stream =>
      cases event with
      | pollin =>
        obtain ⟨size, hread⟩ := hguar
        by_cases hup : w.up = []
        · exact .inr (hwaits hread hup)
        · exact .inl hup
      | pollout => exact .inl trivial
    | dgram => exact .inl trivial
  | recv ty fd size peek =>
    cases ty with
    | stream =>
      by_cases hup : w.up = []
      · cases peek with
        | false => exact .inr (hwaits hguar hup)
        | true => exact .inr (hwaits hguar.2 hup)
      · cases peek with
        | false => exact .inl (hsize hguar hup)
        | true =>
          obtain ⟨rfl, _⟩ := hguar
          exact .inl (List.length_pos_iff.2 hup)
    | dgram => exact .inl trivial
  | send ty fd buf =>
    cases ty with
    | stream => exact .inl trivial
    | dgram =>
      refine .inl ?_
      obtain ⟨stage, live, conf⟩ := v
      cases stage with
      | data tries out =>
        obtain ⟨_, _, _, hinside⟩ := hguar
        obtain ⟨hshares, _⟩ := hhold
        change (chunkBytes s.conf).length = (chunkContext s.conf).chunkSize
        rw [chunkBytes_eq hshares, hshares.chunk_eq]
        exact length_slice_of_le (by rw [hshares.mapped.length]; exact hinside)
      | _ => exact hguar.elim
  | _ => exact .inl trivial

/-- What the receiver reads of the control channel while the sender waits has come. -/
theorem Situation.due {stage : Sender.Stage} {stage' : Receiver.Stage} {down up : Bytes} {live live' : Bool} {len : Option Nat} {size : Nat}
    (h : Situation Γ c c' true stage stage' down up) (hwaits : Waits ⟨stage, live, c⟩ up)
    (hread : Receiver.reads ⟨stage', live', len, c'⟩ size) : size ≤ down.length ∧ 0 < size := by
  -- a header for the sender is on its way
  have hheard {ack : UInt8} {seq : UInt32} {rest : Bytes} {Q : Prop} (hup : up = recvHeader ack seq ++ rest) (hstage : stage ≠ .done true) : Q := by
    rcases hwaits with ⟨_, hnil⟩ | hdone
    · exact absurd (hup.symm.trans hnil) (recvHeader_ne_nil _ _ _)
    · exact absurd hdone hstage
  cases h with
  | offer _ | flow _ | final _ => rcases hwaits with ⟨hsender, _⟩ | hdone <;> first | exact hsender.elim | cases hdone
  | offered _ =>
    obtain rfl : size = PacketType.size .send := hread
    exact ⟨by rw [length_sendFrame]; exact Nat.le_add_right _ _, by decide⟩
  | offerInfo _ _ =>
    obtain rfl : size = infostrSize := hread
    exact ⟨Nat.le_of_eq (length_packIntoInfostring _).symm, by decide⟩
  | accepted => exact hheard (List.append_nil _).symm nofun
  | flowed _ =>
    obtain rfl : size = PacketType.size .flow := hread
    exact ⟨Nat.le_refl _, by decide⟩
  | answered => exact hheard rfl nofun
  | answeredAhead => exact hheard rfl nofun
  | data _ _ hwork => cases hwork <;> exact hread.elim
  | @dataAhead _ tries out behind =>
    cases behind with
    | zero => exact hheard (List.append_nil _).symm nofun
    | succ behind => exact hheard (by rw [nacks_succ, List.append_assoc]) nofun
  | finalSent _ =>
    obtain rfl : size = PacketType.size .send := hread
    exact ⟨by rw [length_sendFrame]; exact Nat.le_add_right _ _, by decide⟩
  | finalInfo _ =>
    obtain rfl : size = infostrSize := hread
    exact ⟨Nat.le_of_eq (length_packIntoInfostring _).symm, by decide⟩
  | told => exact hheard (List.append_nil _).symm nofun
  | _ => exact hread.elim

/-- So has the datagram. -/
theorem Traffic.due {stage : Sender.Stage} {crc : UInt32} {tries got : Nat} {live : Bool} {down up : Bytes}
    (h : Traffic Γ t c c' w stage (.data crc tries got)) (hwaits : Waits ⟨stage, live, c⟩ up)
    (hsit : Situation Γ c c' true stage (.data crc tries got) down up) (hgot : got < (chunkContext c).chunkSize) :
    ∃ d rest, w.data = d :: rest ∧ d.length = min (segsizeOf c) ((chunkContext c).chunkSize - got) := by
  -- the sender has sent the chunk
  have hsent {tries out : Nat} (hwaits : Waits ⟨.data tries out, live, c⟩ up) : out = (chunkContext c).chunkSize ∧ up = [] := by
    rcases hwaits with ⟨⟨_, hout, _⟩, hup⟩ | hdone
    · exact ⟨hout, hup⟩
    · cases hdone
  cases h with
  | quiet _ _ hnot _ => exact absurd (.data _) (hnot _ _)
  | ready _ =>
    rcases hwaits with ⟨_, rfl⟩ | hdone
    · cases hsit
    · cases hdone
  | fresh _ _ _ _ =>
    obtain ⟨hout, _⟩ := hsent hwaits
    exact absurd hgot (by rw [← hout]; exact Nat.lt_irrefl _)
  | @moving _ out _ _ arrives _ _ hpieces _ _ _ _ =>
    obtain ⟨rfl, _⟩ := hsent hwaits
    generalize w.data = data at hpieces
    cases data with
    | nil => exact absurd hgot (by rw [show got = _ from hpieces]; exact Nat.lt_irrefl _)
    | cons d rest => exact ⟨d, rest, rfl, hpieces.2.1⟩
  | whole _ hstage _ _ _ => rcases hstage with hstage | ⟨_, hstage⟩ <;> cases hstage
  | @again tries out crc _ _ _ _ _ =>
    obtain ⟨_, rfl⟩ := hsent hwaits
    generalize hempty : ([] : Bytes) = up at hsit
    cases hsit with
    | @data _ _ _ _ behind _ _ _ hwork =>
      cases behind with
      | zero => cases hwork
      | succ behind => exact absurd (hempty.trans (nacks_succ _ _)).symm (recvHeader_ne_nil _ _ _)
    | dataAhead _ hturn => exact absurd (hturn ▸ Working.data _) (not_working_turn c' _ _)
  | ahead _ _ hturn _ => exact absurd (hturn ▸ Working.data _) (not_working_turn c' _ _)

/-- While the sender waits a call of the receiver is ready. -/
theorem Smooth.right_ready (h : Smooth Γ t v v' w) (hwaits : Waits v w.up) (hhold : Receiver.hold v' s')
    (hguar : (Receiver.role Γ).guar v' s' call) : Ready w s' .right call := by
  obtain ⟨hsit, hdisk⟩ := h.fits.exact h.live h.live' h.accepted
  have htraffic := h.traffic
  obtain ⟨stage, live, conf⟩ := v
  obtain ⟨stage', live', len, conf'⟩ := v'
  have hread {size : Nat} (hread : Receiver.reads ⟨stage', live', len, conf'⟩ size) : size ≤ w.down.length ∧ 0 < size :=
    Situation.due hsit hwaits hread
  have hcollect {size : Nat} (hcollects : Receiver.collects ⟨stage', live', len, conf'⟩ s' size) :
      ∃ d rest, w.data = d :: rest ∧ size = d.length := by
    cases stage' with
    | data crc tries got =>
      obtain ⟨hgot, hsize, _⟩ := hcollects
      have hin := hsit.inStep_of_working (.data got)
      have hchunk := hin.deal.numbers.chunk hin.seq
      have hseg : segsizeOf conf' = segsizeOf conf := by
        unfold segsizeOf
        rw [hin.deal.numbers.chsize, hin.deal.numbers.pchsize]
      dsimp only at hgot hsize
      rw [hchunk] at hgot hsize
      obtain ⟨d, rest, hd, hlen⟩ := htraffic.due hwaits hsit hgot
      exact ⟨d, rest, hd, by rw [hlen, hsize, hseg]⟩
    | _ => exact hcollects.elim
  cases call with
  | poll ty fd event timeout =>
    cases event with
    | pollin =>
      cases ty with
      | stream =>
        obtain ⟨size, hpoll⟩ := hguar
        exact List.length_pos_iff.1 (Nat.lt_of_lt_of_le (hread hpoll).2 (hread hpoll).1)
      | dgram =>
        obtain ⟨size, hpoll⟩ := hguar
        obtain ⟨d, rest, hd, _⟩ := hcollect hpoll
        change w.data ≠ []
        rw [hd]
        exact List.cons_ne_nil d rest
    | pollout => cases ty <;> trivial
  | recv ty fd size peek =>
    cases ty with
    | stream =>
      cases peek with
      | false => exact (hread hguar).1
      | true =>
        obtain ⟨rfl, hnext⟩ := hguar
        exact Nat.le_trans (hread hnext).2 (hread hnext).1
    | dgram =>
      obtain ⟨d, rest, hd, rfl⟩ := hcollect hguar
      exact ⟨d, rest, hd, Nat.le_refl _⟩
  | fstat file =>
    obtain ⟨_, hlength⟩ := hguar
    change w.disk ≠ none
    rw [hdisk, hlength]
    exact Option.some_ne_none _
  | send ty fd buf => cases ty <;> trivial
  | _ => trivial

/-- A receiver that is done has sent its report. -/
theorem Situation.reported {stage : Sender.Stage} {live live' : Bool} {ack : Bool} {down up : Bytes} {size : Nat}
    (h : Situation Γ c c' live stage (.done ack) down up) (hread : Sender.reads ⟨stage, live', c⟩ size) : up ≠ [] := by
  have hturn (c : InitConfig) {P : Prop} (h : Receiver.Stage.done ack = Receiver.turn c) : P := by
    unfold Receiver.turn at h
    split at h <;> cases h
  cases h with
  | told _ _ => exact fun h => recvHeader_ne_nil _ _ [] ((List.append_nil _).trans h)
  | done _ _ => exact hread.elim
  | accepted _ _ _ h | answeredAhead _ h | dataAhead _ h => exact hturn _ h
  | answered _ _ hwork | data _ _ hwork => cases hwork

/-! ## The files -/

/-- A sender whose offer has not been refused has its configuration in the view. -/
theorem Situation.shares {stage' : Receiver.Stage} {down up : Bytes} (h : Situation Γ v.conf c' v.live v.stage stage' down up)
    (hhold : Sender.hold v s) : ∃ s₁, Receiver.Shares v.conf s₁ := by
  obtain ⟨stage, live, conf⟩ := v
  cases stage with
  | declined => cases h
  | _ => exact ⟨_, hhold.1⟩

/-- Files with the same numbers have the same size. -/
theorem Numbers.size_eq (h : Numbers c c') (hmapped : Mapped c) (hmapped' : Mapped c') : c'.filec.size = c.filec.size := by
  rw [hmapped.offered, hmapped'.offered, h.chsize, h.pchsize, h.chcount]

/-- When all chunks are done the receiver has the sender's file. -/
theorem Intact.same (h : Intact c c') (hover : Over Γ c c') (hregular : Regular c) (hmapped : Mapped c) (hmapped' : Mapped c') :
    c'.filec.size = c.filec.size ∧ c'.filec.mfile.buf = c.filec.mfile.buf := by
  have hsize := hover.deal.numbers.size_eq hmapped hmapped'
  have hpast : c.chcount.toNat < c'.seq.toNat := by
    rw [hover.seq]
    exact Nat.lt_of_not_le fun hle => hover.past (UInt32.le_iff_toNat_le.2 hle)
  refine ⟨hsize, eq_of_tiles hregular.tiles ?_ (hmapped'.length.trans hsize) hmapped.length fun n hn hle => ?_⟩
  · obtain ⟨n, hn, hle, _⟩ := (hregular.tiles.cover 0).1 hmapped.pos
    exact Nat.le_trans hn hle
  · exact h n hn (Nat.lt_of_le_of_lt hle hpast)

/-! ## Neither party has failed -/

/-- The sender does not stop. -/
theorem Smooth.left_going (h : Smooth Γ t v v' w) (hregular : Regular v.conf) (hhold : Sender.hold v s) (ht : 0 < t)
    (htries : t ≤ v.conf.tfTrycount) (haddrs : checkAddrs v.conf.addrs = .success) (hhold' : Receiver.hold v' s') :
    ¬Sender.Stuck v := by
  obtain ⟨hsit, _⟩ := h.fits.exact h.live h.live' h.accepted
  have htraffic := h.traffic
  have hintact := h.intact
  obtain ⟨stage, live, conf⟩ := v
  obtain ⟨stage', live', len, conf'⟩ := v'
  dsimp only at hsit htraffic hintact htries haddrs hregular
  have hpos := hregular.chunk_pos
  -- nothing of the chunk has gone out
  have hfresh {tries : Nat} (htraffic : Traffic Γ t conf conf' w (.data tries 0) stage') : tries < t := by
    generalize hout : 0 = out at htraffic
    cases htraffic with
    | quiet _ hstage _ _ => exact absurd rfl (hstage _ _)
    | fresh _ _ _ htries => exact htries
    | moving hmoved _ _ _ _ _ _ => exact absurd hmoved (by rw [← hout]; exact Nat.lt_irrefl 0)
    | whole hwhole _ _ _ _ => omega
    | again hwhole _ _ _ _ => omega
    | ahead hwhole _ _ _ => omega
  generalize w.down = down, w.up = up at hsit
  rintro (hdead | hdeclined | hdone | hflow | hdata | ⟨tries, hdata, hpast⟩ | ⟨_, hinvalid⟩)
  · exact absurd (h.live.symm.trans hdead) Bool.noConfusion
  · obtain rfl : stage = .declined := hdeclined
    cases hsit
  · obtain rfl : stage = .done false := hdone
    generalize hack : false = ack at hsit
    cases hsit with
    | done hover hcrc =>
      obtain ⟨hsize, hbuf⟩ := (hintact nofun nofun).same hover hregular hhold.1.mapped hhold'.1.mapped
      have hsame : calcFileCrc16 Γ conf.filec = calcFileCrc16 Γ conf'.filec := by
        unfold calcFileCrc16
        rw [hsize, hbuf]
      rw [decide_eq_true hsame] at hcrc
      exact absurd (hack.trans hcrc) Bool.noConfusion
  · obtain rfl : stage = .flow conf.tfTrycount := hflow
    generalize htry : conf.tfTrycount = tries at hsit
    cases hsit with
    | flow _ => omega
  · obtain rfl : stage = .data conf.tfTrycount 0 := hdata
    exact absurd (hfresh htraffic) (Nat.not_lt.2 htries)
  · obtain rfl : stage = .data tries 0 := hdata
    obtain ⟨hshares, hle, _⟩ := hhold
    exact absurd (hregular.startPos_lt hshares.counted hle) (Nat.not_lt.2 hpast)
  · exact absurd haddrs hinvalid

/-- The receiver has tries left for its chunk. -/
theorem Traffic.tries_lt {stage : Sender.Stage} {crc : UInt32} {tries got : Nat} (ht : 0 < t)
    (h : Traffic Γ t c c' w stage (.data crc tries got)) : tries < t := by
  cases h with
  | quiet _ _ hnot _ => exact absurd (.data _) (hnot _ _)
  | ready _ => exact ht
  | fresh _ _ _ htries => exact htries
  | moving _ _ _ _ _ _ hbrings => exact hbrings.1
  | whole _ hstage _ _ _ => rcases hstage with hstage | ⟨_, hstage⟩ <;> cases hstage
  | again _ _ _ _ htries => exact htries
  | ahead _ _ hturn _ => exact absurd (hturn ▸ Working.data _) (not_working_turn c' _ _)

/-- Nor does the receiver. -/
theorem Smooth.right_going (h : Smooth Γ t v v' w) (hregular : Regular v.conf) (hhold : Sender.hold v s)
    (hhold' : Receiver.hold v' s') (ht : 0 < t) (htries : t ≤ v'.conf.tfTrycount) : ¬Receiver.Stuck v' := by
  obtain ⟨hsit, _⟩ := h.fits.exact h.live h.live' h.accepted
  have htraffic := h.traffic
  rintro (hdead | hreject | ⟨crc, hdata⟩ | ⟨crc, tries, hdata, hpast⟩)
  · exact absurd (h.live'.symm.trans hdead) Bool.noConfusion
  · rw [hreject] at hsit
    have hturn (c : InitConfig) : Receiver.Stage.reject ≠ Receiver.turn c := by
      unfold Receiver.turn
      split <;> exact nofun
    generalize v.stage = stage, w.down = down, w.up = up at hsit
    cases hsit with
    | accepted _ _ _ hstage | answeredAhead _ hstage | dataAhead _ hstage => exact absurd hstage (hturn _)
    | answered _ _ hwork | data _ _ hwork => cases hwork
  · rw [hdata] at htraffic
    exact absurd (htraffic.tries_lt ht) (Nat.not_lt.2 htries)
  · obtain ⟨s₁, hshares⟩ := Situation.shares (by rw [h.live]; exact hsit) hhold
    rw [hdata] at hsit
    have hin := hsit.inStep_of_working (.data 0)
    unfold Receiver.hold at hhold'
    rw [hdata] at hhold'
    rw [hin.deal.numbers.chunk hin.seq, hin.deal.numbers.size_eq hshares.mapped hhold'.1.mapped] at hpast
    exact absurd (hregular.startPos_lt hshares.counted hin.le) (Nat.not_lt.2 hpast)

end

end Joint

end RufShare
