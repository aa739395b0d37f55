import RufShare.Lemmas.Sender
import RufShare.Lemmas.Delivery
import RufShare.Theorems.Tiling
import RufShare.Parties

/-!
# The two roles together

What a sender and a receiver, each keeping its role, may have between them: for every pair of stages the control bytes on their way.
The sender never looks at the sequence of a RECV header and counts its tries apart from the receiver, so the relation says how many
verdicts on a chunk the receiver has given that the sender has not read. The data channel has no part in it.
-/

namespace RufShare

open Resumption Slice

namespace Joint

/-- The receiver has the sender's numbers. -/
structure Numbers (c c' : InitConfig) : Prop where
  chsize : c'.chsize = c.chsize
  pchsize : c'.pchsize = c.pchsize
  chcount : c'.chcount = c.chcount

/-- The counter of the loops and the addresses of the chunks do not wrap. -/
structure Addressable (c : InitConfig) : Prop where
  count : c.chcount.toNat < 2 ^ 32 - 1
  product : (c.chcount.toNat - 1) * c.chsize.toNat < 2 ^ 32

section

variable (Γ : Libcrc)

/-- The receiver has the sender's numbers, and every chunk before its current one has the checksum of the sender's. -/
structure Deal (c c' : InitConfig) : Prop where
  numbers : Numbers c c'
  stored : Addressable c → ∀ n, 1 ≤ n → n < c'.seq.toNat →
    calcChunkCrc32 Γ c'.filec (chunkRange c n) = calcChunkCrc32 Γ c.filec (chunkRange c n)

/-- Both are at the same chunk. -/
structure InStep (c c' : InitConfig) : Prop where
  deal : Deal Γ c c'
  seq : c'.seq = c.seq
  le : c.seq ≤ c.chcount

/-- The receiver has accepted the chunk the sender is at. -/
structure Ahead (c c' : InitConfig) : Prop where
  deal : Deal Γ c c'
  seq : c'.seq = c.seq + 1
  le : c.seq ≤ c.chcount

/-- Both have done all chunks. -/
structure Over (c c' : InitConfig) : Prop where
  deal : Deal Γ c c'
  seq : c'.seq = c.seq
  past : ¬c.seq ≤ c.chcount

/-- A RECV header on the wire. -/
def recvHeader (ack : UInt8) (seq : UInt32) : Bytes := (packRecvPacket ack 0 seq).bytes

/-- Verdicts that ask for the chunk again. -/
def nacks (seq : UInt32) (n : Nat) : Bytes := (List.replicate n (recvHeader 0 seq)).flatten

/-- The infostring of the sender's SEND headers. -/
def infostr (c : InitConfig) : Bytes := packIntoInfostring (sendArgs c 0).info

/-- The receiver is at a chunk with this checksum and has asked for it again `tries` times. -/
inductive Working (crc : UInt32) (tries : Nat) : Receiver.Stage → Prop where
  | data (got : Nat) : Working crc tries (.data crc tries got)
  | sync (page : Nat) : Working crc tries (.sync crc tries page)
  | verdict : Working crc tries (.verdict crc tries)

/-- The stages the parties may be at together, with the bytes that are due to the receiver and to the sender. In the stages after a
SEND header that was cut the sender is not live. -/
inductive Situation (c c' : InitConfig) : Bool → Sender.Stage → Receiver.Stage → Bytes → Bytes → Prop where
  | offer {live : Bool} : c.seq = 1 → Situation c c' live .offer .offer [] []
  | offerCut : Situation c c' false .offer .offerInfo [] []
  | offered {live : Bool} : c.seq = 1 → Situation c c' live .offered .offer (sendFrame c 0) []
  | offerInfo {live : Bool} : c.seq = 1 → Numbers c c' → Situation c c' live .offered .offerInfo (infostr c) []
  | making {live : Bool} : c.seq = 1 → Numbers c c' → Situation c c' live .offered .making [] []
  | accepted {live : Bool} {stage : Receiver.Stage} : c.seq = 1 → c'.seq = 1 → Deal Γ c c' → stage = Receiver.turn c' →
      Situation c c' live .offered stage [] (recvHeader 1 0)
  | flow {live : Bool} : InStep Γ c c' → Situation c c' live (.flow 0) .flow [] []
  | flowed {live : Bool} : InStep Γ c c' → Situation c c' live (.flowed 0) .flow (flowPacket Γ c).bytes []
  | answer {live : Bool} {crc : UInt32} : InStep Γ c c' → crc = calcChunkCrc32 Γ c.filec (chunkContext c) →
      Situation c c' live (.flowed 0) (.answer crc) [] []
  | answered {live : Bool} {crc : UInt32} {tries : Nat} {stage : Receiver.Stage} : InStep Γ c c' →
      crc = calcChunkCrc32 Γ c.filec (chunkContext c) → Working crc tries stage →
      Situation c c' live (.flowed 0) stage [] (recvHeader 1 c.seq ++ nacks c.seq tries)
  | answeredAhead {live : Bool} {tries : Nat} {stage : Receiver.Stage} : Ahead Γ c c' → stage = Receiver.turn c' →
      Situation c c' live (.flowed 0) stage [] (recvHeader 1 c.seq ++ (nacks c.seq tries ++ recvHeader 1 c.seq))
  | data {live : Bool} {crc : UInt32} {tries out behind : Nat} {stage : Receiver.Stage} : InStep Γ c c' →
      crc = calcChunkCrc32 Γ c.filec (chunkContext c) → Working crc (tries + behind) stage →
      Situation c c' live (.data tries out) stage [] (nacks c.seq behind)
  | dataAhead {live : Bool} {tries out behind : Nat} {stage : Receiver.Stage} : Ahead Γ c c' → stage = Receiver.turn c' →
      Situation c c' live (.data tries out) stage [] (nacks c.seq behind ++ recvHeader 1 c.seq)
  | final {live : Bool} : Over Γ c c' → Situation c c' live .final .final [] []
  | finalCut {crc : UInt16} : Over Γ c c' → Situation c c' false .final (.finalInfo crc) [] []
  | finalSent {live : Bool} : Over Γ c c' →
      Situation c c' live .finalSent .final (sendFrame c (calcFileCrc16 Γ c.filec)) []
  | finalInfo {live : Bool} : Over Γ c c' →
      Situation c c' live .finalSent (.finalInfo (calcFileCrc16 Γ c.filec)) (infostr c) []
  | report {live : Bool} : Over Γ c c' → Situation c c' live .finalSent (.report (calcFileCrc16 Γ c.filec)) [] []
  | told {live : Bool} {ack : Bool} : Over Γ c c' → ack = decide (calcFileCrc16 Γ c.filec = calcFileCrc16 Γ c'.filec) →
      Situation c c' live .finalSent (.done ack) [] (recvHeader (if ack then 1 else 0) c'.seq)
  | done {live : Bool} {ack : Bool} : Over Γ c c' → ack = decide (calcFileCrc16 Γ c.filec = calcFileCrc16 Γ c'.filec) →
      Situation c c' live (.done ack) (.done ack) [] []

/-- How much of a header that was cut there may be: less than what the receiver reads next, or than a whole SEND header while the
sender is about to push one. -/
def room : Sender.Stage → Receiver.Stage → Nat
  | .offer, .offer | .final, .final => PacketType.size .send + infostrSize
  | .offer, .offerInfo | .final, .finalInfo _ => infostrSize
  | _, _ => PacketType.size .flow

/-- The views of the two parties and the network fit. Nothing is asked of a receiver that has refused but that its refusal is the
next header the sender reads. -/
def Fits (v : Sender.View) (v' : Receiver.View) (w : Network) : Prop :=
  (v'.stage = .refused ∧ (v.stage = .declined ∨ v.stage = .offered ∧ (v.live = true → recvHeader 0 0 <+: w.up))) ∨
    ∃ down up, Situation Γ v.conf v'.conf v.live v.stage v'.stage down up ∧
      Carries v'.live v.live w.down down (room v.stage v'.stage) ∧ Carries v.live v'.live w.up up (PacketType.size .recv) ∧
      w.disk = v'.length

variable {Γ} {c c' : InitConfig} {v : Sender.View} {v' : Receiver.View} {w : Network}

theorem length_sendFrame (c : InitConfig) (crc : UInt16) : (sendFrame c crc).length = PacketType.size .send + infostrSize := by
  rw [sendFrame, List.length_append, SendPacket.length_bytes, length_packIntoInfostring]

theorem length_recvHeader (ack : UInt8) (seq : UInt32) : (recvHeader ack seq).length = PacketType.size .recv := rfl

theorem ack_reply (ack : UInt8) (seq : UInt32) : (convertRecvPacket (.ofBytes (recvHeader ack seq))).ack = ack := by
  rw [recvHeader, RecvPacket.ofBytes_bytes]
  rfl

theorem nacks_succ (seq : UInt32) (n : Nat) : nacks seq (n + 1) = recvHeader 0 seq ++ nacks seq n := by
  rw [nacks, List.replicate_succ, List.flatten_cons, nacks]

theorem nacks_append (seq : UInt32) (n : Nat) : nacks seq n ++ recvHeader 0 seq = nacks seq (n + 1) := by
  rw [nacks, nacks, List.replicate_succ', List.flatten_append, List.flatten_singleton]

/-! ## The sender's calls -/

theorem Situation.mute {live : Bool} {stage : Sender.Stage} {stage' : Receiver.Stage} {down up : Bytes}
    (h : Situation Γ c c' live stage stage' down up) : Situation Γ c c' false stage stage' down up := by
  cases h <;> constructor <;> assumption

/-- A sender that stops hears nothing more. -/
theorem Fits.failLeft (h : Fits Γ v v' w) (up : Bytes) : Fits Γ { v with live := false } v' { w with up := up } := by
  rcases h with ⟨hrefused, h⟩ | ⟨down, _, hsit, hdown, _, hdisk⟩
  · exact .inl ⟨hrefused, h.imp_right fun h => ⟨h.1, fun h => absurd h Bool.false_ne_true⟩⟩
  · exact .inr ⟨down, _, hsit.mute, hdown.mute, Carries.deaf, hdisk⟩

/-- A datagram of the sender changes nothing here. -/
theorem Fits.emitted {tries out out' : Nat} (hstage : v.stage = .data tries out) (h : Fits Γ v v' w) :
    Fits Γ { v with stage := .data tries out' } v' w := by
  obtain ⟨stage, live, conf⟩ := v
  obtain rfl : stage = .data tries out := hstage
  rcases h with ⟨_, h⟩ | ⟨down, up, hsit, hdown, hup, hdisk⟩
  · rcases h with h | h
    · cases h
    · cases h.1
  · refine .inr ⟨down, up, ?_, hdown, hup, hdisk⟩
    dsimp only at hsit ⊢
    cases hsit with
    | data hin hcrc hw => exact .data hin hcrc hw
    | dataAhead hahead hturn => exact .dataAhead hahead hturn

/-- What the sender may push is due when it is in the channel, and may be cut. -/
theorem Situation.sent {s : Proc} {buf : Bytes} {down up : Bytes} (hsends : Sender.sends Γ v s buf)
    (h : Situation Γ v.conf c' v.live v.stage v'.stage down up) (hlive : v.live = true) :
    down = [] ∧ Situation Γ v.conf c' v.live (Sender.sent v).stage v'.stage buf up ∧ buf.length = room v.stage v'.stage := by
  obtain ⟨stage, live, conf⟩ := v
  obtain ⟨stage', live', len, conf'⟩ := v'
  dsimp only at h hlive ⊢
  subst hlive
  cases h with
  | offer hseq =>
    obtain rfl : buf = sendFrame conf 0 := hsends
    exact ⟨rfl, .offered hseq, length_sendFrame _ _⟩
  | flow hin =>
    obtain rfl : buf = (flowPacket Γ conf).bytes := hsends.1
    exact ⟨rfl, .flowed hin, rfl⟩
  | final hover =>
    obtain rfl : buf = sendFrame conf (calcFileCrc16 Γ conf.filec) := hsends.1
    exact ⟨rfl, .finalSent hover, length_sendFrame _ _⟩
  | _ => exact hsends.elim

theorem room_pos (stage : Sender.Stage) (stage' : Receiver.Stage) : 0 < room stage stage' := by
  unfold room
  split <;> decide

theorem sent_live (v : Sender.View) : (Sender.sent v).live = v.live := by
  unfold Sender.sent
  split <;> rfl

theorem sent_conf (v : Sender.View) : (Sender.sent v).conf = v.conf := by
  unfold Sender.sent
  split <;> rfl

/-- A sender whose offer is answered by a refusal, or that has read it, pushes nothing. -/
theorem not_sends_of_refused {s : Proc} {buf : Bytes} {p : Prop} (h : v.stage = .declined ∨ v.stage = .offered ∧ p) :
    ¬Sender.sends Γ v s buf := by
  intro hsends
  unfold Sender.sends at hsends
  rcases h with h | h
  · rw [h] at hsends
    exact hsends
  · rw [h.1] at hsends
    exact hsends

theorem Fits.sentLeft {s : Proc} {buf : Bytes} (hlive : v.live = true) (hsends : Sender.sends Γ v s buf) (h : Fits Γ v v' w) :
    Fits Γ (Sender.sent v) v' { w with down := w.down ++ buf } := by
  rcases h with ⟨_, h⟩ | ⟨down, up, hsit, hdown, hup, hdisk⟩
  · exact absurd hsends (not_sends_of_refused h)
  · obtain ⟨rfl, hsit, _⟩ := hsit.sent hsends hlive
    rw [hlive] at hdown
    refine .inr ⟨buf, up, ?_, ?_, ?_, hdisk⟩
    · rw [sent_conf, sent_live]
      exact hsit
    · rw [sent_live, hlive]
      exact (hdown.bound (room_pos _ _)).put
    · rw [sent_live]
      exact hup

/-- A header that the sender pushes in part ends it. -/
theorem Fits.cutLeft {s : Proc} {buf : Bytes} {n : Nat} (hlive : v.live = true) (hsends : Sender.sends Γ v s buf) (hn : n < buf.length)
    (h : Fits Γ v v' w) : Fits Γ { v with live := false } v' { w with down := w.down ++ buf.take n } := by
  rcases h with ⟨_, h⟩ | ⟨down, up, hsit, hdown, _, hdisk⟩
  · exact absurd hsends (not_sends_of_refused h)
  · obtain ⟨rfl, _, hroom⟩ := hsit.sent hsends hlive
    rw [hlive] at hdown
    refine .inr ⟨[], up, hsit.mute, ?_, Carries.deaf, hdisk⟩
    rw [← hroom]
    exact hdown.cut hn

/-- The sender's counter has no part in what the receiver has stored. -/
theorem Deal.bump (h : Deal Γ c c') (seq : UInt32) : Deal Γ { c with seq := seq } c' where
  numbers := ⟨h.numbers.chsize, h.numbers.pchsize, h.numbers.chcount⟩
  stored := fun ha => h.stored ⟨ha.count, ha.product⟩

/-- The sender goes on to the chunk the receiver is at, or both are done. -/
theorem situation_turn {live : Bool} (hdeal : Deal Γ c c') (hseq : c'.seq = c.seq) :
    Situation Γ c c' live (Sender.turn c) (Receiver.turn c') [] [] := by
  unfold Sender.turn Receiver.turn
  rw [hseq, hdeal.numbers.chcount]
  by_cases h : c.seq ≤ c.chcount
  · rw [if_pos h, if_pos h]
    exact .flow ⟨hdeal, hseq, h⟩
  · rw [if_neg h, if_neg h]
    exact .final ⟨hdeal, hseq, h⟩

/-- The sender reads a RECV header: it is the answer to what the sender is waiting for. -/
theorem Situation.got {down up b : Bytes} (h : Situation Γ v.conf c' v.live v.stage v'.stage down up)
    (hread : Sender.reads v (PacketType.size .recv)) (hlive : v.live = true)
    (hup : Carries true v'.live w.up up (PacketType.size .recv)) (hb : b <+: w.up) (hlen : b.length = PacketType.size .recv) :
    ∃ up', Situation Γ (Sender.got v b).conf c' (Sender.got v b).live (Sender.got v b).stage v'.stage down up' ∧
      Carries true v'.live (w.up.drop b.length) up' (PacketType.size .recv) := by
  obtain ⟨stage, live, conf⟩ := v
  obtain ⟨stage', live', len, conf'⟩ := v'
  dsimp only at h hlive hup ⊢
  subst hlive
  -- nothing is due
  have hempty (h : Carries true live' w.up [] (PacketType.size .recv)) : False := by
    have := h.short hb
    omega
  -- the next reply is read
  have hnext {ack : UInt8} {seq : UInt32} {rest : Bytes} (h : Carries true live' w.up (recvHeader ack seq ++ rest) (PacketType.size .recv)) :
      (convertRecvPacket (.ofBytes b)).ack = ack ∧ Carries true live' (w.up.drop b.length) rest (PacketType.size .recv) := by
    obtain ⟨rfl, hrest⟩ := h.take hb (hlen.trans (length_recvHeader ack seq).symm)
    exact ⟨ack_reply ack seq, hrest⟩
  unfold Sender.got
  cases h with
  | offer _ => exact hread.elim
  | offered _ => exact (hempty hup).elim
  | offerInfo _ _ => exact (hempty hup).elim
  | making _ _ => exact (hempty hup).elim
  | accepted hseq hseq' hdeal hturn =>
    rw [← List.append_nil (recvHeader 1 0)] at hup
    obtain ⟨hack, hrest⟩ := hnext hup
    rw [hack, hturn]
    exact ⟨[], situation_turn hdeal (hseq'.trans hseq.symm), hrest⟩
  | flow _ => exact hread.elim
  | flowed _ => exact (hempty hup).elim
  | answer _ _ => exact (hempty hup).elim
  | answered hin hcrc hwork =>
    obtain ⟨hack, hrest⟩ := hnext hup
    rw [hack]
    refine ⟨_, .data hin hcrc ?_, hrest⟩
    rw [Nat.zero_add]
    exact hwork
  | answeredAhead hahead hturn =>
    obtain ⟨hack, hrest⟩ := hnext hup
    rw [hack]
    exact ⟨_, .dataAhead hahead hturn, hrest⟩
  | @data _ crc tries out behind _ hin hcrc hwork =>
    cases behind with
    | zero => exact (hempty hup).elim
    | succ behind =>
      rw [nacks_succ] at hup
      obtain ⟨hack, hrest⟩ := hnext hup
      rw [hack]
      refine ⟨_, .data hin hcrc ?_, hrest⟩
      rw [Nat.add_right_comm]
      exact hwork
  | @dataAhead _ tries out behind _ hahead hturn =>
    cases behind with
    | zero =>
      rw [← List.append_nil (nacks conf.seq 0 ++ recvHeader 1 conf.seq)] at hup
      obtain ⟨hack, hrest⟩ := hnext (show Carries true live' w.up (recvHeader 1 conf.seq ++ []) _ from hup)
      rw [hack, hturn]
      exact ⟨[], situation_turn (hahead.deal.bump (conf.seq + 1)) hahead.seq, hrest⟩
    | succ behind =>
      rw [nacks_succ, List.append_assoc] at hup
      obtain ⟨hack, hrest⟩ := hnext hup
      rw [hack]
      exact ⟨_, .dataAhead hahead hturn, hrest⟩
  | final _ => exact hread.elim
  | finalSent _ => exact (hempty hup).elim
  | finalInfo _ => exact (hempty hup).elim
  | report _ => exact (hempty hup).elim
  | @told _ ack hover hack =>
    rw [← List.append_nil (recvHeader _ _)] at hup
    obtain ⟨hgot, hrest⟩ := hnext hup
    rw [hgot]
    refine ⟨[], ?_, hrest⟩
    cases ack with
    | true => exact .done hover hack
    | false => exact .done hover hack
  | done _ _ => exact hread.elim

theorem Fits.gotLeft {b : Bytes} (hlive : v.live = true) (hread : Sender.reads v (PacketType.size .recv)) (h : Fits Γ v v' w)
    (hb : b <+: w.up) (hlen : b.length = PacketType.size .recv) : Fits Γ (Sender.got v b) v' { w with up := w.up.drop b.length } := by
  rcases h with ⟨hrefused, h⟩ | ⟨down, up, hsit, hdown, hup, hdisk⟩
  · obtain ⟨stage, live, conf⟩ := v
    rcases h with h | ⟨h, hfirst⟩
    · obtain rfl : stage = .declined := h
      exact hread.elim
    · obtain rfl : stage = .offered := h
      have hreply : b = recvHeader 0 0 := (List.prefix_of_prefix_length_le hb (hfirst hlive) (Nat.le_of_eq hlen)).eq_of_length hlen
      refine .inl ⟨hrefused, .inl ?_⟩
      rw [Sender.got, hreply, ack_reply]
      rfl
  · rw [hlive] at hup hdown
    obtain ⟨up', hsit, hup⟩ := hsit.got hread hlive hup hb hlen
    have hlive' : (Sender.got v b).live = true := by
      unfold Sender.got Sender.answered
      split
      case h_3 =>
        split
        · exact hlive
        · exact hlive
      all_goals exact hlive
    refine .inr ⟨down, up', hsit, ?_, ?_, hdisk⟩
    · rw [hlive']
      exact hdown.bound (room_pos _ _)
    · rw [hlive']
      exact hup

/-- The sender reads RECV headers only. -/
theorem size_of_reads {size : Nat} (h : Sender.reads v size) : size = PacketType.size .recv := by
  obtain ⟨stage, live, conf⟩ := v
  cases stage with
  | offered | flowed | finalSent => exact h
  | data => exact h.1
  | _ => exact h.elim

theorem Fits.left {s : Proc} {e : Option Call} {call : Call} {r : call.Answer} {w₁ : Network} (h : Fits Γ v v' w)
    (hlive : v.live = true) (hguar : (Sender.role Γ).guar v s call) (ha : network .left e w s call r w₁) :
    Fits Γ ((Sender.role Γ).next v s call r) v' w₁ := by
  obtain ⟨down₁, up₁, disk₁⟩ := w₁
  -- a call that is not of the control channel, and ends the sender or leaves its view
  have hplain (p : Prop) [Decidable p] (hw : (⟨down₁, up₁, disk₁⟩ : Network) = w) :
      Fits Γ (if p then v else { v with live := false }) v' ⟨down₁, up₁, disk₁⟩ := by
    rw [hw]
    split
    · exact h
    · exact h.failLeft w.up
  cases call with
  | send ty fd buf =>
    cases ty with
    | stream =>
      obtain ⟨hputs, hup, hdisk⟩ := ha
      dsimp only at hputs hup hdisk
      subst hup hdisk
      cases r with
      | none =>
        obtain rfl : down₁ = w.down := hputs
        exact h.failLeft w.up
      | some n =>
        obtain ⟨hn, rfl⟩ := hputs
        by_cases hall : buf.length ≤ n
        · obtain rfl : n = buf.length := Nat.le_antisymm hn hall
          have hnext : (Sender.role Γ).next v s (.send .stream fd buf) (some buf.length) = Sender.sent v := if_pos (Nat.le_refl _)
          rw [hnext, List.take_length]
          exact h.sentLeft hlive hguar
        · have hnext : (Sender.role Γ).next v s (.send .stream fd buf) (some n) = { v with live := false } := if_neg hall
          rw [hnext]
          exact h.cutLeft hlive hguar (Nat.lt_of_not_le hall)
    | dgram =>
      obtain rfl : (⟨down₁, up₁, disk₁⟩ : Network) = w := ha
      change Fits Γ (if r.elim False (fun n => buf.length ≤ n) then Sender.emitted v buf else _) v' _
      split
      · have hemits : Sender.emits v buf := hguar
        unfold Sender.emitted
        split
        case h_1 hstage => exact h.emitted hstage
        case h_2 => exact h
      · exact h.failLeft _
  | recv ty fd size peek =>
    cases ty with
    | stream =>
      obtain ⟨htakes, hdown, hdisk⟩ := ha
      dsimp only at htakes hdown hdisk
      subst hdown hdisk
      cases r with
      | none =>
        obtain rfl : up₁ = w.up := htakes
        cases peek <;> exact h.failLeft w.up
      | some b =>
        obtain ⟨hb, rfl⟩ := htakes
        cases peek with
        | true =>
          change Fits Γ (if size ≤ b.1.length ∧ _ then v else _) v' _
          split
          · exact h
          · exact h.failLeft w.up
        | false =>
          change Fits Γ (if size ≤ b.1.length then Sender.got v b.1 else _) v' _
          split
          case isTrue hsize =>
            have hread : Sender.reads v size := hguar
            obtain rfl := size_of_reads hread
            exact h.gotLeft hlive hread hb (Nat.le_antisymm b.2 hsize)
          case isFalse => exact h.failLeft _
    | dgram => exact (show False from hguar).elim
  | poll ty fd event timeout => exact hplain _ ha
  | malloc size => exact hplain _ ha
  | calloc nmemb size => exact hplain _ ha
  | _ => exact hplain _ ha

/-! ## The receiver's calls -/

/-- A receiver that stops hears nothing more. -/
theorem Fits.failRight (h : Fits Γ v v' w) (down : Bytes) : Fits Γ v { v' with live := false } { w with down := down } := by
  rcases h with ⟨hrefused, h⟩ | ⟨_, up, hsit, _, hup, hdisk⟩
  · exact .inl ⟨hrefused, h⟩
  · exact .inr ⟨_, up, hsit, Carries.deaf, hup.mute, hdisk⟩

/-- While the sender waits there is no room for a SEND header that was cut. -/
theorem room_of_waits {stage : Sender.Stage} (stage' : Receiver.Stage) (h : stage ≠ .offer ∧ stage ≠ .final) :
    room stage stage' = PacketType.size .flow := by
  unfold room
  split
  case h_5 => rfl
  all_goals first | exact absurd rfl h.1 | exact absurd rfl h.2

/-- The chunk of the receiver is the one of the sender. -/
theorem Numbers.chunk (h : Numbers c c') (hseq : c'.seq = c.seq) : chunkContext c' = chunkContext c := by
  simp only [chunkContext, h.chsize, h.pchsize, h.chcount, hseq]

theorem chunkRange_seq (c : InitConfig) : chunkRange c c.seq.toNat = chunkContext c := by
  simp only [chunkRange, UInt32.ofNat_toNat]

/-- The receiver has stored the chunk of the sender. -/
theorem InStep.accept (h : InStep Γ c c') (hcrc : calcChunkCrc32 Γ c.filec (chunkContext c) = calcChunkCrc32 Γ c'.filec (chunkContext c')) :
    Ahead Γ c { c' with seq := c'.seq + 1 } where
  deal :=
    { numbers := ⟨h.deal.numbers.chsize, h.deal.numbers.pchsize, h.deal.numbers.chcount⟩
      stored := fun ha n hn hlt => by
        have hle : n ≤ c'.seq.toNat := by
          have := Nat.mod_le (c'.seq.toNat + 1) (2 ^ 32)
          rw [UInt32.toNat_add] at hlt
          exact Nat.le_of_lt_succ (Nat.lt_of_lt_of_le hlt this)
        rcases Nat.lt_or_eq_of_le hle with hlt | rfl
        · exact h.deal.stored ha n hn hlt
        · rw [h.seq, chunkRange_seq, hcrc, h.deal.numbers.chunk h.seq] }
  seq := congrArg (· + 1) h.seq
  le := h.le

/-- The counter begins at one, and does not come back to zero. -/
theorem one_le_seq (hcounted : Counted c) (ha : Addressable c) : 1 ≤ c.seq.toNat := by
  refine Nat.one_le_iff_ne_zero.2 fun hzero => ?_
  have hcount := ha.count
  rw [hcounted.wrapped (UInt32.toNat_inj.1 hzero)] at hcount
  exact absurd hcount (by decide)

/-- The chunk before the one the receiver is at is stored. -/
theorem Ahead.stored (h : Ahead Γ c c') (hcounted : Counted c) (ha : Addressable c) :
    calcChunkCrc32 Γ c'.filec (chunkContext c) = calcChunkCrc32 Γ c.filec (chunkContext c) := by
  have hle := UInt32.le_iff_toNat_le.1 h.le
  have hcount := ha.count
  have hnext : c'.seq.toNat = c.seq.toNat + 1 := by
    rw [h.seq, UInt32.toNat_add]
    exact Nat.mod_eq_of_lt (by change c.seq.toNat + 1 < 2 ^ 32; omega)
  have hstored := h.deal.stored ha c.seq.toNat (one_le_seq hcounted ha) (by omega)
  rw [chunkRange_seq] at hstored
  exact hstored

/-- Under `Addressable` a chunk before the current one ends where the current one starts, or earlier. -/
theorem stop_le_startPos (ha : Addressable c) (hle : c.seq ≤ c.chcount) {n : Nat} (hn : 1 ≤ n) (hlt : n < c.seq.toNat) :
    (chunkRange c n).startPos + (chunkRange c n).chunkSize ≤ (chunkContext c).startPos := by
  have hle := UInt32.le_iff_toNat_le.1 hle
  have hcount := c.chcount.toNat_lt
  have hproduct := ha.product
  -- the products before the last one do not wrap either
  have hsmall {k : Nat} (hk : k ≤ c.chcount.toNat) : (k - 1) * c.chsize.toNat < 2 ^ 32 :=
    Nat.lt_of_le_of_lt (Nat.mul_le_mul_right _ (Nat.sub_le_sub_right hk 1)) hproduct
  rw [← chunkRange_seq c, TilingAux.startPos_chunkRange c hn (by omega), TilingAux.startPos_chunkRange c (by omega) (by omega),
    TilingAux.chunkSize_chunkRange c (by omega), if_neg (by omega), Nat.mod_eq_of_lt (hsmall (by omega)),
    Nat.mod_eq_of_lt (hsmall hle)]
  calc (n - 1) * c.chsize.toNat + c.chsize.toNat = n * c.chsize.toNat := by
        rw [← Nat.succ_mul, Nat.succ_eq_add_one, Nat.sub_add_cancel hn]
    _ ≤ (c.seq.toNat - 1) * c.chsize.toNat := Nat.mul_le_mul_right _ (by omega)

/-- A datagram that the receiver writes leaves the chunks before the current one as they are. -/
theorem InStep.collect (h : InStep Γ c c') (hlength : c'.filec.mfile.buf.length = c'.filec.size) (hinside : ChunkInside c') {got : Nat}
    {b : Bytes} (hb : got + b.length ≤ (chunkContext c').chunkSize) :
    InStep Γ c (withBuf c' (overwrite c'.filec.mfile.buf ((chunkContext c').startPos + got) b)) where
  deal :=
    { numbers := ⟨h.deal.numbers.chsize, h.deal.numbers.pchsize, h.deal.numbers.chcount⟩
      stored := fun ha n hn hlt => by
        have hstop := stop_le_startPos ha h.le hn (by rw [← h.seq]; exact hlt)
        rw [← h.deal.numbers.chunk h.seq] at hstop
        unfold ChunkInside at hinside
        rw [← h.deal.stored ha n hn hlt]
        simp only [calcChunkCrc32, withBuf]
        rw [slice_overwrite_of_disjoint (by rw [hlength]; omega) (.inl (by omega))] }
  seq := h.seq
  le := h.le

/-- What the receiver pushes is a RECV header. -/
theorem length_of_sends {s : Proc} {buf : Bytes} (h : Receiver.sends Γ v' s buf) : buf.length = PacketType.size .recv := by
  obtain ⟨stage, live, len, conf⟩ := v'
  cases stage with
  | making =>
    rcases h with ⟨rfl, _⟩ | rfl
    · rfl
    · rfl
  | answer | reject | verdict | report =>
    obtain rfl : buf = _ := h
    rfl
  | _ => exact h.elim

/-- The answer to the offer. -/
theorem Situation.answerOffer {live : Bool} {stage : Sender.Stage} {down up : Bytes} {s : Proc}
    (h : Situation Γ c c' live stage .making down up) (hstored : Receiver.Stored c' s) :
    down = [] ∧ up = [] ∧ stage = .offered ∧
      Situation Γ c (core { s.conf with seq := 1 }) live stage (Receiver.turn { s.conf with seq := 1 }) [] (recvHeader 1 0) := by
  have hturn (c : InitConfig) : (Receiver.Stage.making : Receiver.Stage) ≠ Receiver.turn c := by
    unfold Receiver.turn
    split <;> exact Receiver.Stage.noConfusion
  cases h with
  | making hseq hnum =>
    have hnum₁ : Numbers c s.conf :=
      ⟨hstored.chsize.trans hnum.chsize, hstored.pchsize.trans hnum.pchsize, hstored.chcount.trans hnum.chcount⟩
    refine ⟨rfl, rfl, rfl, .accepted hseq rfl ⟨⟨hnum₁.chsize, hnum₁.pchsize, hnum₁.chcount⟩, fun _ n hn hlt => ?_⟩ rfl⟩
    exact absurd hlt (Nat.not_lt.2 hn)
  | accepted _ _ _ h => exact absurd h (hturn _)
  | answeredAhead _ h => exact absurd h (hturn _)
  | dataAhead _ h => exact absurd h (hturn _)
  | answered _ _ h => cases h
  | data _ _ h => cases h

/-- Any other header of the receiver. -/
theorem Situation.sentRight {s : Proc} {buf down up : Bytes} (h : Situation Γ c v'.conf v.live v.stage v'.stage down up)
    (hsends : Receiver.sends Γ v' s buf) (hmaking : v'.stage ≠ .making) :
    down = [] ∧ (v.stage ≠ .offer ∧ v.stage ≠ .final) ∧
      Situation Γ c (Receiver.sent Γ v' s buf).conf v.live v.stage (Receiver.sent Γ v' s buf).stage [] (up ++ buf) := by
  obtain ⟨stage, live, conf⟩ := v
  obtain ⟨stage', live', len, conf'⟩ := v'
  dsimp only at h hmaking ⊢
  have hturn {p : Prop} (h : stage' = Receiver.turn conf') : p := by
    unfold Receiver.turn at h
    split at h
    · subst h
      exact hsends.elim
    · subst h
      exact hsends.elim
  cases h with
  | accepted _ _ _ h => exact hturn h
  | answeredAhead _ h => exact hturn h
  | dataAhead _ h => exact hturn h
  | answer hin hcrc =>
    obtain rfl : buf = recvHeader 1 conf'.seq := hsends
    refine ⟨rfl, ⟨Sender.Stage.noConfusion, Sender.Stage.noConfusion⟩, ?_⟩
    rw [hin.seq, List.nil_append, ← List.append_nil (recvHeader 1 c.seq)]
    exact .answered hin hcrc (.data 0)
  | @answered _ crc tries _ hin hcrc hwork =>
    refine ⟨rfl, ⟨Sender.Stage.noConfusion, Sender.Stage.noConfusion⟩, ?_⟩
    cases hwork with
    | data => exact hsends.elim
    | sync => exact hsends.elim
    | verdict =>
      have hbuf : buf = recvHeader (if crc = Receiver.chunkCrc Γ ⟨.verdict crc tries, live', len, conf'⟩ then 1 else 0) conf'.seq := hsends
      rw [hin.seq] at hbuf
      subst hbuf
      unfold Receiver.sent
      dsimp only
      rw [List.append_assoc]
      split
      case isTrue heq => exact .answeredAhead (hin.accept (hcrc.symm.trans heq)) rfl
      case isFalse =>
        rw [nacks_append]
        exact .answered hin hcrc (.data 0)
  | @data _ crc tries out behind _ hin hcrc hwork =>
    refine ⟨rfl, ⟨Sender.Stage.noConfusion, Sender.Stage.noConfusion⟩, ?_⟩
    generalize hall : tries + behind = all at hwork
    cases hwork with
    | data => exact hsends.elim
    | sync => exact hsends.elim
    | verdict =>
      have hbuf : buf = recvHeader (if crc = Receiver.chunkCrc Γ ⟨.verdict crc all, live', len, conf'⟩ then 1 else 0) conf'.seq := hsends
      rw [hin.seq] at hbuf
      subst hbuf
      unfold Receiver.sent
      dsimp only
      split
      case isTrue heq => exact .dataAhead (hin.accept (hcrc.symm.trans heq)) rfl
      case isFalse =>
        rw [nacks_append]
        refine .data hin hcrc ?_
        rw [← Nat.add_assoc, hall]
        exact .data 0
  | report hover =>
    refine ⟨rfl, ⟨Sender.Stage.noConfusion, Sender.Stage.noConfusion⟩, ?_⟩
    obtain rfl : buf = recvHeader (if calcFileCrc16 Γ c.filec = calcFileCrc16 Γ conf'.filec then 1 else 0) conf'.seq := hsends
    have htold : Situation Γ c conf' live .finalSent _ [] _ := .told hover rfl
    simp only [decide_eq_true_eq] at htold
    exact htold
  | _ => first | exact hsends.elim | exact absurd rfl hmaking

theorem Fits.sentRight {s : Proc} {buf : Bytes} (hlive : v'.live = true) (hrefused : v'.stage ≠ .refused)
    (hhold : Receiver.hold v' s) (hsends : Receiver.sends Γ v' s buf) (h : Fits Γ v v' w) :
    Fits Γ v (Receiver.sent Γ v' s buf) { w with up := w.up ++ buf } := by
  obtain ⟨down, up, hsit, hdown, hup, hdisk⟩ := h.resolve_left fun h => hrefused h.1
  have hlive' : (Receiver.sent Γ v' s buf).live = v'.live ∧ (Receiver.sent Γ v' s buf).length = v'.length := by
    unfold Receiver.sent
    split <;> (try split) <;> exact ⟨rfl, rfl⟩
  rw [hlive] at hup
  by_cases hmaking : v'.stage = .making
  · obtain ⟨stage, live, conf⟩ := v
    obtain ⟨stage', live', len, conf'⟩ := v'
    dsimp only at hsit hdown hup hdisk hmaking hlive
    subst hmaking hlive
    obtain ⟨rfl, rfl, rfl, haccepted⟩ := hsit.answerOffer (s := s) hhold
    rcases hsends with ⟨rfl, _⟩ | rfl
    · refine .inr ⟨[], recvHeader 1 0, haccepted, hdown, hup.put, hdisk⟩
    · refine .inl ⟨rfl, .inr ⟨rfl, fun hlive => ?_⟩⟩
      dsimp only at hlive
      subst hlive
      dsimp only
      rw [hup.eq, List.nil_append]
      exact List.prefix_refl _
  · obtain ⟨rfl, hwaits, hsit⟩ := hsit.sentRight hsends hmaking
    refine .inr ⟨[], up ++ buf, hsit, ?_, ?_, hdisk.trans hlive'.2.symm⟩
    · rw [hlive'.1, room_of_waits _ hwaits, ← room_of_waits v'.stage hwaits]
      exact hdown
    · rw [hlive'.1, hlive]
      exact hup.put

theorem Fits.cutRight {s : Proc} {buf : Bytes} {n : Nat} (hlive : v'.live = true) (hrefused : v'.stage ≠ .refused)
    (hsends : Receiver.sends Γ v' s buf) (hn : n < buf.length) (h : Fits Γ v v' w) :
    Fits Γ v { v' with live := false } { w with up := w.up ++ buf.take n } := by
  obtain ⟨down, up, hsit, _, hup, hdisk⟩ := h.resolve_left fun h => hrefused h.1
  rw [hlive] at hup
  refine .inr ⟨down, up, hsit, Carries.deaf, ?_, hdisk⟩
  rw [← length_of_sends hsends]
  exact hup.cut hn

/-- The numbers of a SEND header. -/
theorem numbers_sendArgs (c : InitConfig) (crc : UInt16) :
    (convertSendPacket (.ofBytes (sendArgs c crc).packet.bytes)).chunkSize = c.chsize ∧
    (convertSendPacket (.ofBytes (sendArgs c crc).packet.bytes)).partialChunkSize = c.pchsize ∧
    (convertSendPacket (.ofBytes (sendArgs c crc).packet.bytes)).chunkCount = c.chcount ∧
    (convertSendPacket (.ofBytes (sendArgs c crc).packet.bytes)).crc = crc := by
  rw [SendPacket.ofBytes_bytes]
  simp only [convertSendPacket, sendArgs, packSendPacket, ntohs_htons, ntohl_htonl, and_self]

/-- The FLOW header of the sender fits the chunk the receiver is at. -/
theorem matchFlow_flowPacket (h : InStep Γ c c') :
    matchFlow c' (convertFlowPacket (.ofBytes (flowPacket Γ c).bytes)) = true ∧
    (convertFlowPacket (.ofBytes (flowPacket Γ c).bytes)).crc = calcChunkCrc32 Γ c.filec (chunkContext c) := by
  rw [FlowPacket.ofBytes_bytes]
  have hsize : UInt16.ofNat (chunkContext c).chunkSize = if c.seq = c.chcount then c.pchsize else c.chsize := by
    simp only [chunkContext, UInt16.ofNat_toNat]
  simp only [convertFlowPacket, flowPacket, packFlowPacket, ntohs_htons, ntohl_htonl, and_true, matchFlow, h.seq,
    h.deal.numbers.chsize, h.deal.numbers.pchsize, h.deal.numbers.chcount, hsize]
  by_cases hlast : c.seq = c.chcount
  · simp [hlast]
  · simp [hlast]

/-- Between two chunks the receiver reads as much as there is no room for. -/
theorem size_le_of_turn {size : Nat} (h : Receiver.reads v' size) (hturn : v'.stage = Receiver.turn v'.conf) :
    PacketType.size .flow ≤ size := by
  unfold Receiver.turn at hturn
  unfold Receiver.reads at h
  rw [hturn] at h
  by_cases hseq : v'.conf.seq ≤ v'.conf.chcount
  · rw [if_pos hseq] at h
    exact Nat.le_of_eq (Eq.symm h)
  · rw [if_neg hseq] at h
    exact Nat.le_trans (by decide) (Nat.le_of_eq (Eq.symm h))

/-- The receiver reads a part of a header: it is the next one of the sender. -/
theorem Situation.gotRight {size : Nat} {down up b : Bytes} (h : Situation Γ c v'.conf v.live v.stage v'.stage down up)
    (hread : Receiver.reads v' size) (hdown : Carries true v.live w.down down (room v.stage v'.stage)) (hb : b <+: w.down)
    (hlen : b.length = size) :
    ∃ down', Situation Γ c (Receiver.got v' b).conf v.live v.stage (Receiver.got v' b).stage down' up ∧
      Carries true v.live (w.down.drop b.length) down' (room v.stage (Receiver.got v' b).stage) := by
  have hturn (h : v'.stage = Receiver.turn v'.conf) := size_le_of_turn hread h
  obtain ⟨stage, live, conf⟩ := v
  obtain ⟨stage', live', len, conf'⟩ := v'
  dsimp only at h hdown hturn ⊢
  -- nothing that is due can be read
  have hempty {n : Nat} (h : Carries true live w.down [] n) (hn : n ≤ size) : False := by
    have := h.short hb
    omega
  -- what is read is the first part of a header that was cut: the sender is not live
  have hcut {n : Nat} (h : Carries true live w.down [] n) (hpos : 0 < size) :
      live = false ∧ Carries true false (w.down.drop b.length) [] (n - size) := by
    cases live with
    | true =>
      have := hb.length_le
      rw [h.eq, List.length_nil] at this
      omega
    | false => exact ⟨rfl, hlen ▸ h.rest hb⟩
  -- the next part of a header is read
  have hnext {first rest : Bytes} {n : Nat} (h : Carries true live w.down (first ++ rest) n) (hfirst : first.length = size) :
      b = first ∧ Carries true live (w.down.drop b.length) rest n := h.take hb (hlen.trans hfirst.symm)
  unfold Receiver.got
  cases h with
  | offer hseq =>
    obtain rfl : size = PacketType.size .send := hread
    obtain ⟨rfl, hrest⟩ := hcut hdown (by decide)
    exact ⟨[], .offerCut, hrest⟩
  | offerCut => exact (hempty hdown (Nat.le_of_eq (Eq.symm hread))).elim
  | offered hseq =>
    obtain rfl : size = PacketType.size .send := hread
    obtain ⟨rfl, hrest⟩ := hnext hdown (SendPacket.length_bytes _)
    obtain ⟨hchsize, hpchsize, hchcount, _⟩ := numbers_sendArgs c 0
    exact ⟨_, .offerInfo hseq ⟨hchsize, hpchsize, hchcount⟩, hrest⟩
  | offerInfo hseq hnum =>
    obtain rfl : size = infostrSize := hread
    rw [← List.append_nil (infostr c)] at hdown
    obtain ⟨rfl, hrest⟩ := hnext hdown (length_packIntoInfostring _)
    exact ⟨_, .making hseq hnum, hrest⟩
  | accepted _ _ _ h => exact (hempty hdown (hturn h)).elim
  | flow _ => exact (hempty hdown (Nat.le_of_eq (Eq.symm hread))).elim
  | flowed hin =>
    obtain rfl : size = PacketType.size .flow := hread
    rw [← List.append_nil (flowPacket Γ c).bytes] at hdown
    obtain ⟨rfl, hrest⟩ := hnext hdown (FlowPacket.length_bytes _)
    obtain ⟨hmatch, hcrc⟩ := matchFlow_flowPacket hin
    dsimp only
    rw [if_pos hmatch]
    exact ⟨_, .answer hin hcrc, hrest⟩
  | answeredAhead _ h => exact (hempty hdown (hturn h)).elim
  | dataAhead _ h => exact (hempty hdown (hturn h)).elim
  | answered _ _ hwork => cases hwork <;> exact hread.elim
  | @data _ _ tries _ behind _ _ _ hwork =>
    generalize tries + behind = all at hwork
    cases hwork <;> exact hread.elim
  | final hover =>
    obtain rfl : size = PacketType.size .send := hread
    obtain ⟨rfl, hrest⟩ := hcut hdown (by decide)
    exact ⟨[], .finalCut hover, hrest⟩
  | finalCut _ => exact (hempty hdown (Nat.le_of_eq (Eq.symm hread))).elim
  | finalSent hover =>
    obtain rfl : size = PacketType.size .send := hread
    obtain ⟨rfl, hrest⟩ := hnext hdown (SendPacket.length_bytes _)
    obtain ⟨_, _, _, hcrc⟩ := numbers_sendArgs c (calcFileCrc16 Γ c.filec)
    dsimp only
    rw [hcrc]
    exact ⟨_, .finalInfo hover, hrest⟩
  | finalInfo hover =>
    obtain rfl : size = infostrSize := hread
    rw [← List.append_nil (infostr c)] at hdown
    obtain ⟨rfl, hrest⟩ := hnext hdown (length_packIntoInfostring _)
    exact ⟨_, .report hover, hrest⟩
  | _ => exact hread.elim

theorem Fits.gotRight {size : Nat} {b : Bytes} (hlive : v'.live = true) (hrefused : v'.stage ≠ .refused)
    (hread : Receiver.reads v' size) (h : Fits Γ v v' w) (hb : b <+: w.down) (hlen : b.length = size) :
    Fits Γ v (Receiver.got v' b) { w with down := w.down.drop b.length } := by
  obtain ⟨down, up, hsit, hdown, hup, hdisk⟩ := h.resolve_left fun h => hrefused h.1
  have hsame : (Receiver.got v' b).live = v'.live ∧ (Receiver.got v' b).length = v'.length := by
    unfold Receiver.got
    split <;> exact ⟨rfl, rfl⟩
  rw [hlive] at hdown hup
  obtain ⟨down', hsit, hdown⟩ := hsit.gotRight hread hdown hb hlen
  refine .inr ⟨down', up, hsit, ?_, ?_, hdisk.trans hsame.2.symm⟩
  · rw [hsame.1, hlive]
    exact hdown
  · rw [hsame.1, hlive]
    exact hup

/-- A datagram comes: the bytes of the current chunk may be anything. -/
theorem Fits.collected {s : Proc} {size : Nat} {b : Bytes} (hrefused : v'.stage ≠ .refused) (hhold : Receiver.hold v' s)
    (hcollects : Receiver.collects v' s size) (hlen : b.length = size) (h : Fits Γ v v' w) :
    Fits Γ v (Receiver.collected v' b) w := by
  obtain ⟨down, up, hsit, hdown, hup, hdisk⟩ := h.resolve_left fun h => hrefused h.1
  obtain ⟨stage, live, conf⟩ := v
  obtain ⟨stage', live', len, conf'⟩ := v'
  dsimp only at hsit hdown hup hdisk
  cases stage' with
  | data crc tries got =>
    obtain ⟨hlt, hsize, _, hinside⟩ := hcollects
    have hb : got + b.length ≤ (chunkContext conf').chunkSize := by
      dsimp only at hlt hsize
      omega
    have hlength : conf'.filec.mfile.buf.length = conf'.filec.size := hhold.1.mapped.length
    have hturn {p : Prop} (h : Receiver.Stage.data crc tries got = Receiver.turn conf') : p := by
      unfold Receiver.turn at h
      split at h
      · cases h
      · cases h
    have hcollect : InStep Γ conf conf' → InStep Γ conf (Receiver.collected ⟨.data crc tries got, live', len, conf'⟩ b).conf :=
      fun hin => hin.collect hlength hinside hb
    have hroom (got : Nat) : room stage (.data crc tries got) = PacketType.size .flow := by
      cases stage <;> rfl
    refine .inr ⟨down, up, ?_, (hroom _).symm ▸ hroom got ▸ hdown, hup, hdisk⟩
    cases hsit with
    | accepted _ _ _ h => exact hturn h
    | answeredAhead _ h => exact hturn h
    | dataAhead _ h => exact hturn h
    | answered hin hcrc hwork =>
      cases hwork
      exact .answered (hcollect hin) hcrc (.data _)
    | @data _ _ tries' _ behind _ hin hcrc hwork =>
      refine .data (hcollect hin) hcrc ?_
      generalize tries' + behind = all at hwork ⊢
      cases hwork
      exact .data _
  | _ => exact hcollects.elim

/-- The chunk is whole and is synced, and then a verdict is due. -/
theorem Fits.synced {crc : UInt32} {tries : Nat} {stage' : Receiver.Stage} (hstage : Working crc tries v'.stage)
    (hstage' : Working crc tries stage') (h : Fits Γ v v' w) : Fits Γ v { v' with stage := stage' } w := by
  have hturn {p : Prop} (h : v'.stage = Receiver.turn v'.conf) : p := by
    unfold Receiver.turn at h
    rw [h] at hstage
    split at hstage
    · cases hstage
    · cases hstage
  have hrefused : v'.stage ≠ .refused := by
    intro h
    rw [h] at hstage
    cases hstage
  obtain ⟨down, up, hsit, hdown, hup, hdisk⟩ := h.resolve_left fun h => hrefused h.1
  obtain ⟨stage, live, conf⟩ := v
  obtain ⟨stage₁, live', len, conf'⟩ := v'
  have hroom {stage' : Receiver.Stage} (h : Working crc tries stage') : room stage stage' = PacketType.size .flow := by
    cases h <;> cases stage <;> rfl
  dsimp only at hstage hturn hsit hdown hup hdisk
  refine .inr ⟨down, up, ?_, (hroom hstage').symm ▸ hroom hstage ▸ hdown, hup, hdisk⟩
  -- the stages of a chunk tell its checksum and its try
  have hsame {crc' : UInt32} {tries' : Nat} (h : Working crc' tries' stage₁) : crc' = crc ∧ tries' = tries := by
    cases h <;> cases hstage <;> exact ⟨rfl, rfl⟩
  cases hsit with
  | accepted _ _ _ h => exact hturn h
  | answeredAhead _ h => exact hturn h
  | dataAhead _ h => exact hturn h
  | answered hin hcrc hwork =>
    obtain ⟨rfl, rfl⟩ := hsame hwork
    exact .answered hin hcrc hstage'
  | data hin hcrc hwork =>
    obtain ⟨rfl, rfl⟩ := hsame hwork
    exact .data hin hcrc hstage'
  | _ => cases hstage

/-- The file is given a length. -/
theorem Fits.truncated {size : Nat} (hstage : v'.stage = .making) (h : Fits Γ v v' w) :
    Fits Γ v { v' with length := some size } { w with disk := some size } := by
  obtain ⟨down, up, hsit, hdown, hup, _⟩ := h.resolve_left fun h => by
    rw [hstage] at h
    cases h.1
  exact .inr ⟨down, up, hsit, hdown, hup, rfl⟩

theorem Fits.right {s : Proc} {e : Option Call} {call : Call} {r : call.Answer} {w₁ : Network} (h : Fits Γ v v' w)
    (hlive : v'.live = true) (hrefused : v'.stage ≠ .refused) (hhold : Receiver.hold v' s) (hguar : (Receiver.role Γ).guar v' s call)
    (ha : network .right e w s call r w₁) :
    Receiver.relies v' call r ∧ Fits Γ v ((Receiver.role Γ).next v' s call r) w₁ := by
  obtain ⟨down₁, up₁, disk₁⟩ := w₁
  -- a call that ends the receiver or leaves its view
  have hplain (p : Prop) [Decidable p] (hw : (⟨down₁, up₁, disk₁⟩ : Network) = w) :
      Fits Γ v (if p then v' else { v' with live := false }) ⟨down₁, up₁, disk₁⟩ := by
    rw [hw]
    split
    · exact h
    · exact h.failRight w.down
  have hstay (hw : (⟨down₁, up₁, disk₁⟩ : Network) = w) : Fits Γ v v' ⟨down₁, up₁, disk₁⟩ := by
    rw [hw]
    exact h
  cases call with
  | send ty fd buf =>
    refine ⟨trivial, ?_⟩
    cases ty with
    | stream =>
      obtain ⟨hputs, hdown, hdisk⟩ := ha
      dsimp only at hputs hdown hdisk
      subst hdown hdisk
      cases r with
      | none =>
        obtain rfl : up₁ = w.up := hputs
        exact h.failRight w.down
      | some n =>
        obtain ⟨hn, rfl⟩ := hputs
        by_cases hall : buf.length ≤ n
        · obtain rfl : n = buf.length := Nat.le_antisymm hn hall
          have hnext : (Receiver.role Γ).next v' s (.send .stream fd buf) (some buf.length) = Receiver.sent Γ v' s buf :=
            if_pos (Nat.le_refl _)
          rw [hnext, List.take_length]
          exact h.sentRight hlive hrefused hhold hguar
        · have hnext : (Receiver.role Γ).next v' s (.send .stream fd buf) (some n) = { v' with live := false } := if_neg hall
          rw [hnext]
          exact h.cutRight hlive hrefused hguar (Nat.lt_of_not_le hall)
    | dgram => exact hguar.elim
  | recv ty fd size peek =>
    refine ⟨trivial, ?_⟩
    cases ty with
    | stream =>
      obtain ⟨htakes, hup, hdisk⟩ := ha
      dsimp only at htakes hup hdisk
      subst hup hdisk
      cases r with
      | none =>
        obtain rfl : down₁ = w.down := htakes
        cases peek <;> exact h.failRight w.down
      | some b =>
        obtain ⟨hb, rfl⟩ := htakes
        cases peek with
        | true =>
          change Fits Γ v (if size ≤ b.1.length ∧ _ then v' else _) _
          split
          · exact h
          · exact h.failRight w.down
        | false =>
          change Fits Γ v (if size ≤ b.1.length then Receiver.got v' b.1 else _) _
          split
          case isTrue hsize => exact h.gotRight hlive hrefused hguar hb (Nat.le_antisymm b.2 hsize)
          case isFalse => exact h.failRight _
    | dgram =>
      obtain rfl : (⟨down₁, up₁, disk₁⟩ : Network) = w := ha
      cases r with
      | none => exact h.failRight _
      | some b =>
        change Fits Γ v (if size ≤ b.1.length then Receiver.collected v' b.1 else _) _
        split
        case isTrue hsize => exact h.collected hrefused hhold hguar (Nat.le_antisymm b.2 hsize)
        case isFalse => exact h.failRight _
  | ftruncate file size =>
    refine ⟨trivial, ?_⟩
    cases r with
    | true =>
      have hw : (⟨down₁, up₁, disk₁⟩ : Network) = { w with disk := some size } := ha
      rw [hw]
      exact h.truncated hguar.1
    | false => exact hstay ha
  | fstat file =>
    cases r with
    | none => exact ⟨trivial, hstay ha⟩
    | some size =>
      obtain ⟨_, _, _, _, _, hdisk⟩ := h.resolve_left fun h => hrefused h.1
      exact ⟨hdisk.symm.trans ha.1, hstay ha.2⟩
  | sysconf =>
    refine ⟨trivial, ?_⟩
    obtain rfl : (⟨down₁, up₁, disk₁⟩ : Network) = w := ha
    obtain ⟨crc, tries, hstage, _⟩ := hguar
    cases r with
    | none => exact h.failRight _
    | some page =>
      have hnext : (Receiver.role Γ).next v' s .sysconf (some page) = { v' with stage := .sync crc tries page } := by
        change Receiver.after v' .sysconf (some page) = _
        simp only [Receiver.after, hstage]
      rw [hnext]
      exact h.synced (hstage ▸ .data _) (.sync page)
  | msync offset size =>
    refine ⟨trivial, ?_⟩
    obtain rfl : (⟨down₁, up₁, disk₁⟩ : Network) = w := ha
    obtain ⟨crc, tries, page, hstage, _⟩ := hguar
    cases r with
    | false => exact h.failRight _
    | true =>
      have hnext : (Receiver.role Γ).next v' s (.msync offset size) true = { v' with stage := .verdict crc tries } := by
        change Receiver.after v' (.msync offset size) true = _
        simp only [Receiver.after, hstage]
      rw [hnext]
      exact h.synced (hstage ▸ .sync page) .verdict
  | fopen | fclose | fstatvfs | stat | mmap => exact ⟨trivial, hstay ha⟩
  | poll | malloc | calloc => exact ⟨trivial, hplain _ ha⟩
  | _ => exact ⟨trivial, hplain _ ha⟩

/-- Once the receiver has refused the offer, it may do anything. -/
theorem Fits.rightFree {s : Proc} {e : Option Call} {call : Call} {r : call.Answer} {w₁ : Network} (h : Fits Γ v v' w)
    (hrefused : v'.stage = .refused) (ha : network .right e w s call r w₁) : Fits Γ v v' w₁ := by
  obtain ⟨_, hleft⟩ := h.resolve_right fun ⟨_, _, hsit, _⟩ => by
    have hturn (c : InitConfig) : (Receiver.Stage.refused : Receiver.Stage) ≠ Receiver.turn c := (Receiver.turn_ne_refused c).symm
    rw [hrefused] at hsit
    generalize v.stage = stage, v.live = live at hsit
    cases hsit with
    | accepted _ _ _ h => exact hturn _ h
    | answeredAhead _ h => exact hturn _ h
    | dataAhead _ h => exact hturn _ h
    | answered _ _ h => cases h
    | data _ _ h => cases h
  -- the refusal stays the first thing on its way to the sender
  have hup : w.up <+: w₁.up := by
    cases call with
    | send ty fd buf =>
      cases ty with
      | stream =>
        obtain ⟨hputs, _⟩ := ha
        cases r with
        | none => exact hputs ▸ List.prefix_refl _
        | some n => exact hputs.2 ▸ List.prefix_append _ _
      | dgram => exact (congrArg Network.up ha : w₁.up = w.up) ▸ List.prefix_refl _
    | recv ty fd size peek =>
      cases ty with
      | stream => exact ha.2.1 ▸ List.prefix_refl _
      | dgram => exact (congrArg Network.up ha : w₁.up = w.up) ▸ List.prefix_refl _
    | ftruncate file size =>
      cases r with
      | true =>
        have hw : w₁ = { w with disk := some size } := ha
        exact hw ▸ List.prefix_refl _
      | false => exact (congrArg Network.up ha : w₁.up = w.up) ▸ List.prefix_refl _
    | fstat file =>
      cases r with
      | some size => exact (congrArg Network.up ha.2 : w₁.up = w.up) ▸ List.prefix_refl _
      | none => exact (congrArg Network.up ha : w₁.up = w.up) ▸ List.prefix_refl _
    | _ => exact (congrArg Network.up ha : w₁.up = w.up) ▸ List.prefix_refl _
  exact .inl ⟨hrefused, hleft.imp_right fun h => ⟨h.1, fun hlive => (h.2 hlive).trans hup⟩⟩

/-! ## Files that agree on every chunk -/

/-- The chunk a tiling counts to. -/
theorem take_stop_of_tiles {c : InitConfig} {fileSize : Nat} (h : Tiles c fileSize) {l l' : Bytes}
    (hslice : ∀ n, 1 ≤ n → n ≤ c.chcount.toNat →
      slice l (chunkRange c n).startPos (chunkRange c n).chunkSize = slice l' (chunkRange c n).startPos (chunkRange c n).chunkSize)
    (n : Nat) (hle : n + 1 ≤ c.chcount.toNat) : l.take (chunkRange c (n + 1)).stop = l'.take (chunkRange c (n + 1)).stop := by
  induction n with
  | zero =>
    refine take_eq_of_slice_eq ?_ (hslice 1 (Nat.le_refl 1) hle)
    rw [h.first, List.take_zero, List.take_zero]
  | succ n ih =>
    refine take_eq_of_slice_eq ?_ (hslice (n + 1 + 1) (Nat.le_add_left 1 _) hle)
    rw [h.consecutive (n + 1) (Nat.le_add_left 1 n) hle]
    exact ih (Nat.le_of_succ_le hle)

/-- Files that agree on every chunk are equal. -/
theorem eq_of_tiles {c : InitConfig} {fileSize : Nat} (h : Tiles c fileSize) (hcount : 1 ≤ c.chcount.toNat) {l l' : Bytes}
    (hl : l.length = fileSize) (hl' : l'.length = fileSize)
    (hslice : ∀ n, 1 ≤ n → n ≤ c.chcount.toNat →
      slice l (chunkRange c n).startPos (chunkRange c n).chunkSize = slice l' (chunkRange c n).startPos (chunkRange c n).chunkSize) :
    l = l' := by
  have htake := take_stop_of_tiles h hslice (c.chcount.toNat - 1) (by omega)
  rw [Nat.sub_add_cancel hcount, h.last] at htake
  rw [← hl, List.take_length, hl, ← hl', List.take_length] at htake
  exact htake

end

end Joint

end RufShare
