import RufShare.Lemmas.Joint

/-!
# The two roles on a network on which every call succeeds

When datagrams are neither lost nor reordered, what is on the data channel fits the stages of the parties as the control bytes do:
the receiver has stored what has come of the transmission that the sender is making, and gives its verdict when all of it has come.
-/

namespace RufShare

open Resumption Slice

namespace Joint

/-- What a network on which every call succeeds answers, the network between the parties may answer. -/
theorem network_of_reliable {Γ : Libcrc} {t : Nat} {side : Side} {e : Option Call} {w w₁ : Link} {s : Proc} {call : Call}
    {r : call.Answer} (ha : reliable Γ t side e w s call r w₁) : network side e w.toNetwork s call r w₁.toNetwork := by
  obtain ⟨hsucc, ha⟩ := ha
  have hputs {buf q : Bytes} : Puts buf (some buf.length) q (q ++ buf) := ⟨Nat.le_refl _, by rw [List.take_length]⟩
  have htakes {peek : Bool} {size : Nat} {q q' : Bytes} (h : q' = if peek then q else q.drop size)
      (hsize : size ≤ (q.take size).length) : Takes peek (some (q.take size)) q q' := by
    refine ⟨List.take_prefix _ _, ?_⟩
    rw [Nat.le_antisymm (List.length_take_le _ _) hsize]
    exact h
  cases call with
  | send ty fd buf =>
    cases ty with
    | stream =>
      cases side with
      | left =>
        obtain ⟨rfl, rfl⟩ := ha
        exact ⟨hputs, rfl, rfl⟩
      | right =>
        obtain ⟨rfl, rfl⟩ := ha
        exact ⟨hputs, rfl, rfl⟩
    | dgram =>
      cases side with
      | left =>
        obtain ⟨_, _, _, _, rfl⟩ := ha
        rfl
      | right => exact congrArg Link.toNetwork ha
  | recv ty fd size peek =>
    cases ty with
    | stream =>
      cases side with
      | left =>
        obtain ⟨hr, rfl⟩ := ha
        obtain ⟨b, rfl, hb⟩ := Option.map_eq_some_iff.1 hr
        change size ≤ b.1.length at hsucc
        rw [hb] at hsucc
        refine ⟨?_, ?_, ?_⟩
        · change Takes peek (some b.1) _ _
          rw [hb]
          exact htakes (by cases peek <;> rfl) hsucc
        · cases peek <;> rfl
        · cases peek <;> rfl
      | right =>
        obtain ⟨hr, rfl⟩ := ha
        obtain ⟨b, rfl, hb⟩ := Option.map_eq_some_iff.1 hr
        change size ≤ b.1.length at hsucc
        rw [hb] at hsucc
        refine ⟨?_, ?_, ?_⟩
        · change Takes peek (some b.1) _ _
          rw [hb]
          exact htakes (by cases peek <;> rfl) hsucc
        · cases peek <;> rfl
        · cases peek <;> rfl
    | dgram =>
      cases side with
      | left => exact congrArg Link.toNetwork ha
      | right =>
        obtain ⟨_, _, _, _, rfl⟩ := ha
        rfl
  | poll ty fd event timeout =>
    cases side <;> cases ty <;> cases event <;> first | exact congrArg Link.toNetwork ha | exact congrArg Link.toNetwork ha.2
  | ftruncate file size =>
    cases side with
    | left => exact congrArg Link.toNetwork ha
    | right =>
      obtain rfl : r = true := hsucc
      exact congrArg Link.toNetwork ha
  | fstat file =>
    cases side with
    | left => exact congrArg Link.toNetwork ha
    | right =>
      obtain ⟨hr, rfl⟩ := ha
      cases r with
      | none => rfl
      | some size => exact ⟨hr.symm, rfl⟩
  | fstatvfs file =>
    cases side with
    | left => exact congrArg Link.toNetwork ha
    | right =>
      cases r with
      | none => exact absurd hsucc (by simp [Call.Succeeds])
      | some info => exact congrArg Link.toNetwork ha.2
  | _ => cases side <;> exact congrArg Link.toNetwork ha

/-! ## The data channel -/

/-- Datagrams that take a chunk of `size` bytes from `got` to `out`, none empty and each as long as a segment or the rest. -/
def Pieces (segsize size : Nat) : List Bytes → Nat → Nat → Prop
  | [], got, out => got = out
  | d :: rest, got, out => 0 < d.length ∧ d.length = min segsize (size - got) ∧ Pieces segsize size rest (got + d.length) out

theorem Pieces.snoc {segsize size out : Nat} {d : Bytes} (hpos : 0 < d.length) (hd : d.length = min segsize (size - out)) :
    ∀ {q : List Bytes} {got : Nat}, Pieces segsize size q got out → Pieces segsize size (q ++ [d]) got (out + d.length)
  | [], _, h => by
    obtain rfl := h
    exact ⟨hpos, hd, rfl⟩
  | _ :: _, _, h => ⟨h.1, h.2.1, Pieces.snoc hpos hd h.2.2⟩

theorem Pieces.le {segsize size out : Nat} : ∀ {q : List Bytes} {got : Nat}, Pieces segsize size q got out → got ≤ out
  | [], _, h => Nat.le_of_eq h
  | _ :: _, _, h => Nat.le_trans (Nat.le_add_right _ _) h.2.2.le

/-- Nothing is on its way when all that has gone out has come. -/
theorem Pieces.nil {segsize size out : Nat} {q : List Bytes} (h : Pieces segsize size q out out) : q = [] := by
  cases q with
  | nil => rfl
  | cons d rest =>
    have hle := h.2.2.le
    have hpos := h.1
    omega

section

variable (Γ : Libcrc) (t : Nat)

/-- What a transmission of the chunk brings at the try `tries`: the chunk, or bytes that the receiver will refuse. -/
def Brings (c : InitConfig) (tries : Nat) (arrives : Bytes) (spoiled : Nat) : Prop :=
  tries < t ∧
    (arrives = chunkBytes c ∧ spoiled = 0 ∨ Γ.crc32 arrives ≠ Γ.crc32 (chunkBytes c) ∧ tries + 1 < t ∧ spoiled = tries + 1)

/-- No transmission is under way. -/
structure Idle (w : Link) : Prop where
  data : w.data = []
  coming : w.coming = []
  spoiled : w.spoiled = 0

/-- What the data channel holds at the stages of the parties. -/
inductive Traffic (c c' : InitConfig) (w : Link) : Sender.Stage → Receiver.Stage → Prop where
  | quiet {stage : Sender.Stage} {stage' : Receiver.Stage} : Idle w → (∀ tries out, stage ≠ .data tries out) →
      (∀ crc tries, ¬Working crc tries stage') → (∀ tries, stage = .flowed tries → c'.seq = c.seq) → Traffic c c' w stage stage'
  | ready {tries : Nat} {crc : UInt32} : Idle w → Traffic c c' w (.flowed tries) (.data crc 0 0)
  | fresh {tries : Nat} {crc : UInt32} : w.data = [] → w.coming = [] → w.spoiled = tries → tries < t →
      Traffic c c' w (.data tries 0) (.data crc tries 0)
  | moving {tries out got : Nat} {crc : UInt32} {arrives : Bytes} : 0 < out → out ≤ (chunkContext c).chunkSize →
      Pieces (segsizeOf c) (chunkContext c).chunkSize w.data got out → arrives.length = (chunkContext c).chunkSize →
      slice c'.filec.mfile.buf (chunkContext c).startPos got ++ w.data.flatten = arrives.take out → w.coming = arrives.drop out →
      Brings Γ t c tries arrives w.spoiled → Traffic c c' w (.data tries out) (.data crc tries got)
  | whole {tries out : Nat} {crc : UInt32} {stage' : Receiver.Stage} : out = (chunkContext c).chunkSize →
      stage' = .verdict crc tries ∨ (∃ page, stage' = .sync crc tries page) → w.data = [] → w.coming = [] →
      Brings Γ t c tries (slice c'.filec.mfile.buf (chunkContext c).startPos out) w.spoiled → Traffic c c' w (.data tries out) stage'
  | again {tries out : Nat} {crc : UInt32} : out = (chunkContext c).chunkSize → w.data = [] → w.coming = [] →
      w.spoiled = tries + 1 → tries + 1 < t → Traffic c c' w (.data tries out) (.data crc (tries + 1) 0)
  | ahead {tries out : Nat} {stage' : Receiver.Stage} : out = (chunkContext c).chunkSize → Idle w → stage' = Receiver.turn c' →
      w.up.length = PacketType.size .recv → Traffic c c' w (.data tries out) stage'

/-- The chunks before the receiver's current one are the sender's. -/
def Intact (c c' : InitConfig) : Prop :=
  ∀ n, 1 ≤ n → n < c'.seq.toNat → slice c'.filec.mfile.buf (chunkRange c n).startPos (chunkRange c n).chunkSize =
    slice c.filec.mfile.buf (chunkRange c n).startPos (chunkRange c n).chunkSize

end

section

variable {Γ : Libcrc} {t : Nat} {c c' : InitConfig} {v : Sender.View} {v' : Receiver.View} {w w₁ : Link} {s : Proc} {call : Call}
  {r : call.Answer} {e : Option Call}

/-- Between two parties that run and have agreed to the offer there is exactly what is due. -/
theorem Fits.exact (h : Fits Γ v v' w.toNetwork) (hlive : v.live = true) (hlive' : v'.live = true) (haccepted : v'.stage ≠ .refused) :
    Situation Γ v.conf v'.conf true v.stage v'.stage w.down w.up ∧ w.disk = v'.length := by
  obtain ⟨down, up, hsit, hdown, hup, hdisk⟩ := h.resolve_left fun h => haccepted h.1
  rw [hlive, hlive'] at hdown hup
  rw [hlive] at hsit
  rw [hdown.eq, hup.eq]
  exact ⟨hsit, hdisk⟩

/-- Both parties run and have agreed to the offer, and what has come of the chunks is what the sender has sent. -/
structure Smooth (Γ : Libcrc) (t : Nat) (v : Sender.View) (v' : Receiver.View) (w : Link) : Prop where
  fits : Fits Γ v v' w.toNetwork
  live : v.live = true
  live' : v'.live = true
  accepted : v'.stage ≠ .refused
  traffic : Traffic Γ t v.conf v'.conf w v.stage v'.stage
  intact : v.stage ≠ .offer → v.stage ≠ .offered → Intact v.conf v'.conf

/-- What the sender waits for begins with a RECV header. -/
theorem Situation.heard {stage : Sender.Stage} {stage' : Receiver.Stage} {down up : Bytes} {live : Bool} {size : Nat}
    (h : Situation Γ c c' live stage stage' down up) (hread : Sender.reads ⟨stage, live, c⟩ size) (hup : up ≠ []) :
    ∃ ack seq rest, up = recvHeader ack seq ++ rest := by
  cases h with
  | accepted _ _ _ _ => exact ⟨1, 0, [], (List.append_nil _).symm⟩
  | answered _ _ _ => exact ⟨1, c.seq, _, rfl⟩
  | answeredAhead _ _ => exact ⟨1, c.seq, _, rfl⟩
  | @data _ _ _ _ behind _ _ _ _ =>
    cases behind with
    | zero => exact absurd rfl hup
    | succ behind => exact ⟨0, c.seq, _, nacks_succ _ _⟩
  | @dataAhead _ _ _ behind _ _ _ =>
    cases behind with
    | zero => exact ⟨1, c.seq, [], (List.append_nil _).symm⟩
    | succ behind =>
      rw [nacks_succ, List.append_assoc]
      exact ⟨0, c.seq, _, rfl⟩
  | told _ _ => exact ⟨_, c'.seq, [], (List.append_nil _).symm⟩
  | _ => exact absurd rfl hup

/-- An answer to the offer accepts it. -/
theorem Situation.seq_accepted {live : Bool} {stage' : Receiver.Stage} {down up : Bytes}
    (h : Situation Γ c c' live .offered stage' down up) (hup : up ≠ []) : c'.seq = 1 := by
  cases h with
  | accepted _ hseq _ _ => exact hseq
  | _ => exact absurd rfl hup

/-- The sender pushes a header. -/
theorem Traffic.pushed {buf : Bytes} (h : Traffic Γ t v.conf v'.conf w v.stage v'.stage) (hsends : Sender.sends Γ v s buf)
    (hsit : Situation Γ v.conf v'.conf true v.stage v'.stage w.down w.up) :
    Traffic Γ t v.conf v'.conf { w with down := w.down ++ buf } (Sender.sent v).stage v'.stage := by
  obtain ⟨stage, live, conf⟩ := v
  have hidle {stage : Sender.Stage} (h : Traffic Γ t conf v'.conf w stage v'.stage)
      (hstage : (∀ tries, stage ≠ .flowed tries) ∧ ∀ tries out, stage ≠ .data tries out) :
      Idle w ∧ ∀ crc tries, ¬Working crc tries v'.stage := by
    generalize v'.stage = stage' at h
    cases h with
    | quiet hidle _ hwork _ => exact ⟨hidle, hwork⟩
    | ready _ => exact absurd rfl (hstage.1 _)
    | fresh _ _ _ _ => exact absurd rfl (hstage.2 _ _)
    | moving _ _ _ _ _ _ _ => exact absurd rfl (hstage.2 _ _)
    | whole _ _ _ _ _ => exact absurd rfl (hstage.2 _ _)
    | again _ _ _ _ _ => exact absurd rfl (hstage.2 _ _)
    | ahead _ _ _ _ => exact absurd rfl (hstage.2 _ _)
  cases stage with
  | offer =>
    obtain ⟨hidle, hwork⟩ := hidle h ⟨nofun, nofun⟩
    exact .quiet ⟨hidle.data, hidle.coming, hidle.spoiled⟩ nofun hwork nofun
  | flow tries =>
    obtain ⟨hidle, hwork⟩ := hidle h ⟨nofun, nofun⟩
    refine .quiet ⟨hidle.data, hidle.coming, hidle.spoiled⟩ nofun hwork fun _ _ => ?_
    dsimp only at hsit
    generalize v'.stage = stage', w.down = down, w.up = up at hsit
    cases hsit with
    | flow hin => exact hin.seq
  | final =>
    obtain ⟨hidle, hwork⟩ := hidle h ⟨nofun, nofun⟩
    exact .quiet ⟨hidle.data, hidle.coming, hidle.spoiled⟩ nofun hwork nofun
  | _ => exact hsends.elim

/-- Between two chunks the receiver is not working on one. -/
theorem not_working_turn (c : InitConfig) (crc : UInt32) (tries : Nat) : ¬Working crc tries (Receiver.turn c) := by
  intro h
  unfold Receiver.turn at h
  split at h
  · cases h
  · cases h

theorem sender_turn_cases (c : InitConfig) :
    (∀ tries out, Sender.turn c ≠ .data tries out) ∧ ∀ tries, Sender.turn c ≠ .flowed tries := by
  unfold Sender.turn
  split
  · exact ⟨nofun, nofun⟩
  · exact ⟨nofun, nofun⟩

/-- The sender reads a RECV header. -/
theorem Traffic.heard {b : Bytes} (ht : 0 < t) (h : Traffic Γ t v.conf v'.conf w v.stage v'.stage)
    (hsit : Situation Γ v.conf v'.conf true v.stage v'.stage w.down w.up) (hread : Sender.reads v (PacketType.size .recv))
    (hb : b = w.up.take (PacketType.size .recv)) (hlen : b.length = PacketType.size .recv) {w₁ : Link}
    (hdata : w₁.data = w.data) (hcoming : w₁.coming = w.coming) (hspoiled : w₁.spoiled = w.spoiled) :
    Traffic Γ t (Sender.got v b).conf v'.conf w₁ (Sender.got v b).stage v'.stage := by
  obtain ⟨stage, live, conf⟩ := v
  obtain ⟨stage', live', len, conf'⟩ := v'
  dsimp only at h hsit
  have hidle (h : Idle w) : Idle w₁ := ⟨hdata.trans h.data, hcoming.trans h.coming, hspoiled.trans h.spoiled⟩
  -- the reply that is read
  have hack {ack : UInt8} {seq : UInt32} {rest : Bytes} (h : w.up = recvHeader ack seq ++ rest) :
      (convertRecvPacket (.ofBytes b)).ack = ack := by
    rw [hb, h, List.take_left' (length_recvHeader ack seq)]
    exact ack_reply ack seq
  have hsome {Q : Prop} (h : w.up = []) : Q := by
    rw [hb, h] at hlen
    exact absurd hlen (by decide)
  unfold Sender.got
  generalize hup : w.up = up at hsit hsome
  generalize w.down = down at hsit
  cases hsit with
  | accepted hseq hseq' hdeal hturn =>
    rw [hack (hup.trans (List.append_nil _).symm)]
    subst hturn
    cases h with
    | quiet hq _ hwork _ =>
      exact .quiet (hidle hq) (sender_turn_cases conf).1 hwork fun tries h => absurd h ((sender_turn_cases conf).2 tries)
  | answered hin hcrc hwork =>
    rw [hack hup]
    cases h with
    | quiet _ _ hnot _ => exact absurd hwork (hnot _ _)
    | ready hq => exact .fresh (hdata.trans hq.data) (hcoming.trans hq.coming) (hspoiled.trans hq.spoiled) ht
  | answeredAhead hahead hturn =>
    subst hturn
    generalize hstage' : Receiver.turn conf' = stage' at h
    cases h with
    | quiet _ _ _ hseq =>
      have := (hseq 0 rfl).symm.trans hahead.seq
      exact absurd this (by grind)
    | ready _ => exact absurd (hstage' ▸ Working.data 0) (not_working_turn conf' _ _)
  | @data _ crc tries out behind _ hin hcrc hwork =>
    cases behind with
    | zero => exact hsome rfl
    | succ behind =>
      rw [nacks_succ] at hup
      rw [hack hup]
      cases h with
      | quiet _ hstage _ _ => exact absurd rfl (hstage _ _)
      | fresh _ _ _ _ => cases hwork
      | moving _ _ _ _ _ _ _ => cases hwork
      | whole _ hstage' _ _ _ =>
        rcases hstage' with rfl | ⟨_, rfl⟩
        · cases hwork
        · cases hwork
      | again _ h1 h2 h3 h4 => exact .fresh (hdata.trans h1) (hcoming.trans h2) (hspoiled.trans h3) h4
      | ahead _ _ hturn _ => exact absurd (hturn ▸ hwork) (not_working_turn conf' _ _)
  | @dataAhead _ tries out behind _ hahead hturn =>
    have hworking {crc : UInt32} {tries : Nat} {Q : Prop} (hwork : Working crc tries stage') : Q :=
      absurd (hturn ▸ hwork) (not_working_turn conf' _ _)
    cases h with
    | quiet _ hstage _ _ => exact absurd rfl (hstage _ _)
    | fresh _ _ _ _ => exact hworking (.data _)
    | moving _ _ _ _ _ _ _ => exact hworking (.data _)
    | whole _ hstage' _ _ _ =>
      rcases hstage' with rfl | ⟨_, rfl⟩
      · exact hworking .verdict
      · exact hworking (.sync _)
    | again _ _ _ _ _ => exact hworking (.data _)
    | ahead _ hq _ hlength =>
      -- no verdict but the last is on its way
      obtain rfl : behind = 0 := by
        cases behind with
        | zero => rfl
        | succ behind =>
          rw [hup, nacks_succ, List.append_assoc, List.length_append, List.length_append, length_recvHeader, length_recvHeader] at hlength
          exact absurd hlength (by have : 0 < PacketType.size .recv := by decide
                                   omega)
      rw [hack (hup.trans (List.append_nil _).symm), hturn]
      refine .quiet (hidle hq) (sender_turn_cases _).1 (not_working_turn _) fun tries h => absurd h ((sender_turn_cases _).2 tries)
  | told hover hack' =>
    cases h with
    | quiet hq _ hwork _ => exact .quiet (hidle hq) nofun hwork nofun
  | offer _ => exact hread.elim
  | flow _ => exact hread.elim
  | final _ => exact hread.elim
  | done _ _ => exact hread.elim
  | _ => exact hsome rfl

/-- A segment is not empty, and as long as it can be. -/
theorem length_segment {out : Nat} (hmapped : Mapped c) (hinside : ChunkInside c) (hlt : out < (chunkContext c).chunkSize) :
    (Sender.segment c out).length = min (segsizeOf c) ((chunkContext c).chunkSize - out) ∧ 0 < (Sender.segment c out).length := by
  have hpos := segsizeOf_pos (Nat.ne_of_gt (Nat.zero_lt_of_lt hlt))
  unfold ChunkInside at hinside
  have hlen : (Sender.segment c out).length = min (segsizeOf c) ((chunkContext c).chunkSize - out) :=
    length_slice_of_le (by rw [hmapped.length]; omega)
  exact ⟨hlen, by rw [hlen]; omega⟩

theorem chunkBytes_eq (h : Receiver.Shares c s) : chunkBytes s.conf = chunkBytes c := by
  unfold chunkBytes
  rw [h.chunk_eq, h.buf_eq]

/-- The next segment goes out. -/
theorem Traffic.emitted {buf : Bytes} (h : Traffic Γ t v.conf v'.conf w v.stage v'.stage) (hemits : Sender.emits v buf)
    (hhold : Sender.hold v s) (hconveys : Conveys Γ t s.conf buf w w₁) :
    Traffic Γ t (Sender.emitted v buf).conf v'.conf w₁ (Sender.emitted v buf).stage v'.stage := by
  obtain ⟨stage, live, conf⟩ := v
  cases stage with
  | data tries out =>
    obtain ⟨hlt, rfl, _, hinside⟩ := hemits
    obtain ⟨hshares, _, _, _⟩ := hhold
    obtain ⟨hlen, hpos⟩ := length_segment hshares.mapped hinside hlt
    obtain ⟨arrives, spoiled, hbrings, rfl⟩ := hconveys
    dsimp only at h hlt hlen hpos ⊢
    have hchunk := hshares.chunk_eq
    have hbytes := chunkBytes_eq hshares
    change Traffic Γ t conf v'.conf _ (.data tries (out + (Sender.segment conf out).length)) v'.stage
    generalize (Sender.segment conf out).length = n at hlen hpos ⊢
    generalize v'.stage = stage' at h ⊢
    cases h with
    | quiet _ hstage _ _ => exact absurd rfl (hstage _ _)
    | fresh hdata hcoming hspoiled htries =>
      -- the first datagram of a transmission
      rw [if_pos hcoming] at hbrings
      unfold Transmits at hbrings
      rw [hchunk, hbytes, hspoiled] at hbrings
      dsimp only at hbrings
      obtain ⟨hlength, hbrings⟩ := hbrings
      have htake : (arrives.take n).length = n := by
        rw [List.length_take, hlength]
        omega
      rw [Nat.zero_add]
      refine .moving hpos (by omega) ?_ hlength ?_ rfl ⟨htries, hbrings⟩
      · rw [hdata]
        exact ⟨by rw [htake]; exact hpos, by rw [htake, hlen], by rw [htake, Nat.zero_add]; rfl⟩
      · rw [hdata]
        simp
    | @moving _ _ got _ arrives' hout hle hpieces hlength hstored hcoming hb =>
      have hne : w.coming ≠ [] := by
        rw [hcoming, ne_eq, List.drop_eq_nil_iff, hlength]
        exact Nat.not_le.2 hlt
      rw [if_neg hne] at hbrings
      obtain ⟨rfl, rfl⟩ := hbrings
      have htake : (w.coming.take n).length = n := by
        rw [hcoming, List.length_take, List.length_drop, hlength]
        omega
      refine .moving (Nat.lt_of_lt_of_le hout (Nat.le_add_right _ _)) (by omega) ?_ hlength ?_ ?_ hb
      · have := hpieces.snoc (d := w.coming.take n) (by rw [htake]; exact hpos) (by rw [htake, hlen])
        rw [htake] at this
        exact this
      · rw [List.flatten_append, List.flatten_singleton, ← List.append_assoc, hstored, hcoming, List.take_add]
      · dsimp only
        rw [hcoming, List.drop_drop]
    | whole hout _ _ _ _ => exact absurd hlt (by rw [hout]; exact Nat.lt_irrefl _)
    | again hout _ _ _ _ => exact absurd hlt (by rw [hout]; exact Nat.lt_irrefl _)
    | ahead hout _ _ _ => exact absurd hlt (by rw [hout]; exact Nat.lt_irrefl _)
  | _ => exact hemits.elim

/-- What the sender reads moves nothing of its configuration but the counter. -/
theorem Intact.got {b : Bytes} (h : v.stage ≠ .offer → v.stage ≠ .offered → Intact v.conf c')
    (hfirst : v.stage = .offered → c'.seq = 1) (hread : Sender.reads v (PacketType.size .recv)) : Intact (Sender.got v b).conf c' := by
  obtain ⟨stage, live, conf⟩ := v
  unfold Sender.got Sender.answered
  cases stage with
  | offered =>
    intro n hn hlt
    rw [hfirst rfl] at hlt
    exact absurd hlt (Nat.not_lt.2 hn)
  | data tries out =>
    dsimp only
    split
    · exact h nofun nofun
    · exact h nofun nofun
  | flowed tries => exact h nofun nofun
  | finalSent => exact h nofun nofun
  | _ => exact hread.elim

theorem got_live (b : Bytes) : (Sender.got v b).live = v.live := by
  unfold Sender.got Sender.answered
  split
  case h_3 => split <;> rfl
  all_goals rfl

/-- The sender makes a call, and it succeeds. -/
theorem Smooth.left (ht : 0 < t) (h : Smooth Γ t v v' w) (hhold : Sender.hold v s) (hguar : (Sender.role Γ).guar v s call)
    (ha : reliable Γ t .left e w s call r w₁) : Smooth Γ t ((Sender.role Γ).next v s call r) v' w₁ := by
  have hfits := h.fits.left h.live hguar (network_of_reliable ha)
  obtain ⟨hsit, _⟩ := h.fits.exact h.live h.live' h.accepted
  obtain ⟨hsucc, ha⟩ := ha
  -- a call that moves nothing
  have hstay (hnext : (Sender.role Γ).next v s call r = v) (hw : w₁ = w) : Smooth Γ t ((Sender.role Γ).next v s call r) v' w₁ := by
    subst hw
    rw [hnext] at hfits ⊢
    exact ⟨hfits, h.live, h.live', h.accepted, h.traffic, h.intact⟩
  cases call with
  | send ty fd buf =>
    cases ty with
    | stream =>
      obtain ⟨rfl, rfl⟩ := ha
      have hnext : (Sender.role Γ).next v s (.send .stream fd buf) (some buf.length) = Sender.sent v := if_pos (Nat.le_refl _)
      rw [hnext] at hfits ⊢
      refine ⟨hfits, ?_, h.live', h.accepted, ?_, ?_⟩
      · rw [sent_live]
        exact h.live
      · rw [sent_conf]
        exact h.traffic.pushed hguar hsit
      · rw [sent_conf]
        intro hoffer hoffered
        refine h.intact (fun hstage => ?_) (fun hstage => ?_)
        · exact hoffered (by simp only [Sender.sent, hstage])
        · exact hoffered (by simp only [Sender.sent, hstage])
    | dgram =>
      obtain ⟨rfl, hconveys⟩ := ha
      have hnext : (Sender.role Γ).next v s (.send .dgram fd buf) (some buf.length) = Sender.emitted v buf := if_pos (Nat.le_refl _)
      rw [hnext] at hfits ⊢
      have hsame : (Sender.emitted v buf).live = v.live ∧ (Sender.emitted v buf).conf = v.conf := by
        unfold Sender.emitted
        split <;> exact ⟨rfl, rfl⟩
      refine ⟨hfits, hsame.1.trans h.live, h.live', h.accepted, h.traffic.emitted hguar hhold hconveys, ?_⟩
      intro _ _
      rw [hsame.2]
      refine h.intact (fun hstage => ?_) (fun hstage => ?_)
      · have hemits : Sender.emits v buf := hguar
        unfold Sender.emits at hemits
        rw [hstage] at hemits
        exact hemits
      · have hemits : Sender.emits v buf := hguar
        unfold Sender.emits at hemits
        rw [hstage] at hemits
        exact hemits
  | recv ty fd size peek =>
    cases ty with
    | stream =>
      obtain ⟨hr, rfl⟩ := ha
      obtain ⟨b, rfl, hb⟩ := Option.map_eq_some_iff.1 hr
      change size ≤ b.1.length at hsucc
      cases peek with
      | true =>
        obtain ⟨rfl, hread⟩ := hguar
        have hup : w.up ≠ [] := by
          intro hup
          rw [hb, hup] at hsucc
          exact absurd hsucc (by decide)
        obtain ⟨ack, seq, rest, heq⟩ := hsit.heard hread hup
        refine hstay (if_pos ⟨hsucc, ?_⟩) rfl
        rw [hb, heq]
        rfl
      | false =>
        have hread : Sender.reads v size := hguar
        obtain rfl := size_of_reads hread
        have hnext : (Sender.role Γ).next v s (.recv .stream fd (PacketType.size .recv) false) (some b) = Sender.got v b.1 :=
          if_pos hsucc
        rw [hnext] at hfits ⊢
        refine ⟨hfits, (got_live b.1).trans h.live, h.live', h.accepted,
          h.traffic.heard ht hsit hread hb (Nat.le_antisymm b.2 hsucc) rfl rfl rfl, fun _ _ => Intact.got h.intact (fun hstage => ?_) hread⟩
        rw [hstage] at hsit
        refine hsit.seq_accepted fun hup => ?_
        rw [hb, hup] at hsucc
        exact absurd hsucc (by decide)
    | dgram => exact (show False from hguar).elim
  | poll ty fd event timeout =>
    refine hstay (if_pos hsucc) ?_
    cases ty <;> cases event <;> first | exact ha | exact ha.2
  | malloc size => exact hstay (if_pos hsucc) ha
  | calloc nmemb size => exact hstay (if_pos hsucc) ha
  | _ => exact hstay (if_pos hsucc) ha

/-! ## The receiver's calls -/

/-- A chunk that has come whole is the sender's. -/
theorem Intact.accept (h : Intact c c') (hin : InStep Γ c c')
    (hslice : slice c'.filec.mfile.buf (chunkContext c).startPos (chunkContext c).chunkSize = chunkBytes c) :
    Intact c { c' with seq := c'.seq + 1 } := by
  intro n hn hlt
  have hle : n ≤ c'.seq.toNat := by
    have := Nat.mod_le (c'.seq.toNat + 1) (2 ^ 32)
    rw [UInt32.toNat_add] at hlt
    exact Nat.le_of_lt_succ (Nat.lt_of_lt_of_le hlt this)
  rcases Nat.lt_or_eq_of_le hle with hlt | rfl
  · exact h n hn hlt
  · rw [hin.seq, chunkRange_seq]
    exact hslice

/-- A datagram that the receiver writes leaves the chunks before the current one as they are. -/
theorem Intact.collect (h : Intact c c') (hin : InStep Γ c c') (ha : Addressable c) (hlength : c'.filec.mfile.buf.length = c'.filec.size)
    (hinside : ChunkInside c') {got : Nat} {b : Bytes} (hb : got + b.length ≤ (chunkContext c').chunkSize) :
    Intact c (withBuf c' (overwrite c'.filec.mfile.buf ((chunkContext c').startPos + got) b)) := by
  intro n hn hlt
  have hstop := stop_le_startPos ha hin.le hn (by rw [← hin.seq]; exact hlt)
  rw [← hin.deal.numbers.chunk hin.seq] at hstop
  unfold ChunkInside at hinside
  rw [← h n hn hlt]
  simp only [withBuf]
  rw [slice_overwrite_of_disjoint (by rw [hlength]; omega) (.inl (by omega))]

/-- The receiver answers a FLOW header, gives a verdict or reports. -/
theorem Traffic.replied {buf : Bytes} (h : Traffic Γ t v.conf v'.conf w v.stage v'.stage)
    (hsit : Situation Γ v.conf v'.conf true v.stage v'.stage w.down w.up) (hsends : Receiver.sends Γ v' s buf)
    (hmaking : v'.stage ≠ .making) (hintact : v.stage ≠ .offer → v.stage ≠ .offered → Intact v.conf v'.conf) :
    Traffic Γ t v.conf (Receiver.sent Γ v' s buf).conf { w with up := w.up ++ buf } v.stage (Receiver.sent Γ v' s buf).stage ∧
    (v.stage ≠ .offer → v.stage ≠ .offered → Intact v.conf (Receiver.sent Γ v' s buf).conf) := by
  obtain ⟨stage, live, conf⟩ := v
  obtain ⟨stage', live', len, conf'⟩ := v'
  dsimp only at h hsit hmaking hintact ⊢
  have hturn {Q : Prop} (h : stage' = Receiver.turn conf') : Q := by
    unfold Receiver.turn at h
    split at h
    · subst h
      exact hsends.elim
    · subst h
      exact hsends.elim
  generalize hup : w.up = up at hsit
  generalize w.down = down at hsit
  cases hsit with
  | accepted _ _ _ h => exact hturn h
  | answeredAhead _ h => exact hturn h
  | dataAhead _ h => exact hturn h
  | answer hin hcrc =>
    cases h with
    | quiet hq _ _ _ => exact ⟨.ready ⟨hq.data, hq.coming, hq.spoiled⟩, hintact⟩
  | answered hin hcrc hwork =>
    cases hwork with
    | data => exact hsends.elim
    | sync => exact hsends.elim
    | verdict =>
      cases h with
      | quiet _ _ hnot _ => exact absurd .verdict (hnot _ _)
  | @data _ crc tries out behind _ hin hcrc hwork =>
    generalize hall : tries + behind = all at hwork
    cases hwork with
    | data => exact hsends.elim
    | sync => exact hsends.elim
    | verdict =>
      cases h with
      | quiet _ _ hnot _ => exact absurd .verdict (hnot _ _)
      | ahead _ _ hstage _ => exact absurd (hstage ▸ Working.verdict) (not_working_turn conf' _ _)
      | @whole _ _ crc' _ hout hstage hdata hcoming hbrings =>
        obtain ⟨rfl, rfl⟩ : crc = crc' ∧ all = tries := by
          rcases hstage with hstage | ⟨_, hstage⟩
          · cases hstage
            exact ⟨rfl, rfl⟩
          · cases hstage
        obtain rfl : behind = 0 := by omega
        have hchunk := hin.deal.numbers.chunk hin.seq
        have hstored : Receiver.chunkCrc Γ ⟨.verdict crc all, live', len, conf'⟩ =
            Γ.crc32 (slice conf'.filec.mfile.buf (chunkContext conf).startPos out) := by
          rw [Receiver.chunkCrc, hchunk, hout]
          rfl
        have hsender : crc = Γ.crc32 (chunkBytes conf) := hcrc
        have hbuf : buf = recvHeader (if crc = Receiver.chunkCrc Γ ⟨.verdict crc all, live', len, conf'⟩ then 1 else 0) conf'.seq := hsends
        unfold Receiver.sent
        dsimp only
        rw [hstored]
        rcases hbrings.2 with ⟨harrives, hspoiled⟩ | ⟨harrives, htries, hspoiled⟩
        · -- the chunk has come
          rw [if_pos (by rw [harrives]; exact hsender)]
          refine ⟨.ahead hout ⟨hdata, hcoming, hspoiled⟩ rfl ?_, fun _ _ => (hintact nofun nofun).accept hin ?_⟩
          · rw [hbuf]
            rfl
          · rw [← hout]
            exact harrives
        · rw [if_neg (by rw [hsender]; exact fun h => harrives h.symm)]
          exact ⟨.again hout hdata hcoming hspoiled htries, hintact⟩
  | report hover =>
    cases h with
    | quiet hq hstage _ _ => exact ⟨.quiet ⟨hq.data, hq.coming, hq.spoiled⟩ hstage nofun nofun, hintact⟩
  | _ => first | exact hsends.elim | exact absurd rfl hmaking

/-- The receiver reads a part of a header. -/
theorem Traffic.read {size : Nat} {b : Bytes} (h : Traffic Γ t v.conf v'.conf w v.stage v'.stage)
    (hsit : Situation Γ v.conf v'.conf true v.stage v'.stage w.down w.up) (hread : Receiver.reads v' size) (hdown : size ≤ w.down.length)
    {w₁ : Link} (hdata : w₁.data = w.data) (hcoming : w₁.coming = w.coming) (hspoiled : w₁.spoiled = w.spoiled) :
    Traffic Γ t v.conf (Receiver.got v' b).conf w₁ v.stage (Receiver.got v' b).stage := by
  have hpos : 0 < size := by
    obtain ⟨stage', live', len, conf'⟩ := v'
    cases stage' with
    | offer | offerInfo | flow | final | finalInfo =>
      obtain rfl : size = _ := hread
      decide
    | _ => exact hread.elim
  obtain ⟨stage, live, conf⟩ := v
  obtain ⟨stage', live', len, conf'⟩ := v'
  dsimp only at h hsit
  have hidle (h : Idle w) : Idle w₁ := ⟨hdata.trans h.data, hcoming.trans h.coming, hspoiled.trans h.spoiled⟩
  cases h with
  | quiet hq hstage hwork hseq =>
    cases stage' with
    | offer => exact .quiet (hidle hq) hstage nofun hseq
    | offerInfo => exact .quiet (hidle hq) hstage nofun hseq
    | flow =>
      refine .quiet (hidle hq) hstage (fun crc tries h => ?_) hseq
      unfold Receiver.got at h
      dsimp only at h
      split at h
      · cases h
      · cases h
    | final => exact .quiet (hidle hq) hstage nofun hseq
    | finalInfo crc => exact .quiet (hidle hq) hstage nofun hseq
    | _ => exact hread.elim
  | ready _ => exact hread.elim
  | fresh _ _ _ _ => exact hread.elim
  | moving _ _ _ _ _ _ _ => exact hread.elim
  | whole _ hstage _ _ _ =>
    rcases hstage with rfl | ⟨_, rfl⟩
    · exact hread.elim
    · exact hread.elim
  | again _ _ _ _ _ => exact hread.elim
  | ahead _ _ _ _ =>
    -- nothing has been pushed after the chunk
    generalize hd : w.down = down, w.up = up at hsit
    rw [hd] at hdown
    cases hsit with
    | data _ _ _ => exact absurd hdown (Nat.not_le.2 hpos)
    | dataAhead _ _ => exact absurd hdown (Nat.not_le.2 hpos)

/-- The receiver takes a datagram. -/
theorem Traffic.collected {size : Nat} {d : Bytes} {rest : List Bytes} (h : Traffic Γ t v.conf v'.conf w v.stage v'.stage)
    (hsit : Situation Γ v.conf v'.conf true v.stage v'.stage w.down w.up) (hhold : Receiver.hold v' s)
    (hcollects : Receiver.collects v' s size) (hd : w.data = d :: rest) :
    (d.take size).length = size ∧
    Traffic Γ t v.conf (Receiver.collected v' (d.take size)).conf { w with data := rest } v.stage
      (Receiver.collected v' (d.take size)).stage := by
  obtain ⟨stage, live, conf⟩ := v
  obtain ⟨stage', live', len, conf'⟩ := v'
  dsimp only at h hsit
  cases stage' with
  | data crc tries got =>
    obtain ⟨hlt, hsize, _, hinside⟩ := hcollects
    have hmapped := hhold.1.mapped
    dsimp only at hlt hsize hinside hmapped
    change _ ∧ Traffic Γ t conf (withBuf conf' (overwrite conf'.filec.mfile.buf ((chunkContext conf').startPos + got) (d.take size)))
      { w with data := rest } stage (.data crc tries (got + (d.take size).length))
    generalize hdown : w.down = down, hup : w.up = up at hsit
    cases h with
    | quiet _ _ hnot _ => exact absurd (.data _) (hnot _ _)
    | ready hq => exact absurd (hd.symm.trans hq.data) (List.cons_ne_nil _ _)
    | fresh hdata _ _ _ => exact absurd (hd.symm.trans hdata) (List.cons_ne_nil _ _)
    | whole _ hstage _ _ _ => rcases hstage with hstage | ⟨_, hstage⟩ <;> cases hstage
    | again _ hdata _ _ _ => exact absurd (hd.symm.trans hdata) (List.cons_ne_nil _ _)
    | ahead _ hq _ _ => exact absurd (hd.symm.trans hq.data) (List.cons_ne_nil _ _)
    | @moving _ out _ _ arrives hout hle hpieces hlength hstored hcoming hbrings =>
      have hin : InStep Γ conf conf' := by
        cases hsit with
        | data hin _ _ => exact hin
        | dataAhead _ hturn => exact absurd (hturn ▸ Working.data _) (not_working_turn conf' _ _)
      have hchunk := hin.deal.numbers.chunk hin.seq
      have hseg : segsizeOf conf' = segsizeOf conf := by
        unfold segsizeOf
        rw [hin.deal.numbers.chsize, hin.deal.numbers.pchsize]
      rw [hd] at hpieces hstored
      obtain ⟨hpos, hdlen, hpieces⟩ := hpieces
      have hsize' : size = d.length := by
        rw [hdlen, hsize, hchunk, hseg]
      subst hsize'
      rw [List.take_length]
      unfold ChunkInside at hinside
      rw [hchunk] at hlt hinside
      have hfits : (chunkContext conf).startPos + got + d.length ≤ conf'.filec.mfile.buf.length := by
        rw [hmapped.length]
        omega
      have hslice : slice (overwrite conf'.filec.mfile.buf ((chunkContext conf).startPos + got) d) (chunkContext conf).startPos
          (got + d.length) = slice conf'.filec.mfile.buf (chunkContext conf).startPos got ++ d := by
        rw [← slice_append_slice, slice_overwrite_of_disjoint hfits (.inl (Nat.le_refl _)), slice_overwrite_self hfits]
      refine ⟨rfl, .moving hout hle hpieces hlength ?_ hcoming hbrings⟩
      change slice (overwrite conf'.filec.mfile.buf ((chunkContext conf').startPos + got) d) (chunkContext conf).startPos
        (got + d.length) ++ rest.flatten = arrives.take out
      rw [hchunk, hslice, List.append_assoc]
      exact hstored
  | _ => exact hcollects.elim

/-- A chunk that is whole is synced: all of the transmission has come. -/
theorem Traffic.synced {crc : UInt32} {tries page : Nat} {stage : Sender.Stage} (hpos : 0 < (chunkContext c).chunkSize)
    (h : Traffic Γ t c c' w stage (.data crc tries (chunkContext c).chunkSize)) : Traffic Γ t c c' w stage (.sync crc tries page) := by
  generalize hgot : (chunkContext c).chunkSize = got at h hpos
  cases h with
  | quiet _ _ hnot _ => exact absurd (.data _) (hnot _ _)
  | ready _ => exact absurd hpos (Nat.lt_irrefl 0)
  | fresh _ _ _ _ => exact absurd hpos (Nat.lt_irrefl 0)
  | whole _ hstage _ _ _ => rcases hstage with hstage | ⟨_, hstage⟩ <;> cases hstage
  | again _ _ _ _ _ => exact absurd hpos (Nat.lt_irrefl 0)
  | ahead _ _ hturn _ => exact absurd (hturn ▸ Working.data _) (not_working_turn c' _ _)
  | @moving _ out _ _ arrives hout hle hpieces hlength hstored hcoming hbrings =>
    obtain rfl : out = got := by
      have := hpieces.le
      omega
    have hdata := hpieces.nil
    rw [hdata, List.flatten_nil, List.append_nil, ← hgot, ← hlength, List.take_length] at hstored
    rw [← hstored] at hbrings
    refine .whole hgot.symm (.inr ⟨page, rfl⟩) hdata ?_ ?_
    · rw [hcoming, List.drop_eq_nil_iff, hlength, hgot]
    · rw [hlength, hgot] at hbrings
      exact hbrings

theorem Traffic.verdict {crc : UInt32} {tries page : Nat} {stage : Sender.Stage} (h : Traffic Γ t c c' w stage (.sync crc tries page)) :
    Traffic Γ t c c' w stage (.verdict crc tries) := by
  cases h with
  | quiet _ _ hnot _ => exact absurd (.sync _) (hnot _ _)
  | ahead _ _ hturn _ => exact absurd (hturn ▸ Working.sync _) (not_working_turn c' _ _)
  | whole hout hstage hdata hcoming hbrings =>
    rcases hstage with hstage | ⟨_, hstage⟩
    · cases hstage
    · cases hstage
      exact .whole hout (.inl rfl) hdata hcoming hbrings

/-- While the receiver works on a chunk it is the sender's. -/
theorem Situation.inStep_of_working {live : Bool} {stage : Sender.Stage} {stage' : Receiver.Stage} {down up : Bytes} {crc : UInt32}
    {tries : Nat} (h : Situation Γ c c' live stage stage' down up) (hwork : Working crc tries stage') : InStep Γ c c' := by
  cases h with
  | accepted _ _ _ hturn | answeredAhead _ hturn | dataAhead _ hturn => exact absurd (hturn ▸ hwork) (not_working_turn c' _ _)
  | answered hin _ _ | data hin _ _ => exact hin
  | _ => cases hwork

/-- The header that the receiver waits for begins with the type it expects. -/
theorem Situation.expected {live live' : Bool} {stage : Sender.Stage} {stage' : Receiver.Stage} {down up : Bytes} {len : Option Nat}
    (h : Situation Γ c c' live stage stage' down up)
    (hread : Receiver.reads ⟨stage', live', len, c'⟩ (Receiver.expects ⟨stage', live', len, c'⟩).size) (hdown : down ≠ []) :
    byteAt (down.take 1) 0 = (Receiver.expects ⟨stage', live', len, c'⟩).code := by
  cases h with
  | offered _ => rfl
  | offerInfo _ _ => exact absurd (show PacketType.size .send = infostrSize from hread) (by decide)
  | flowed _ => rfl
  | finalSent _ => rfl
  | finalInfo _ => exact absurd (show PacketType.size .send = infostrSize from hread) (by decide)
  | _ => exact absurd rfl hdown

theorem live_receiver_got (b : Bytes) : (Receiver.got v' b).live = v'.live := by
  unfold Receiver.got
  split <;> rfl

/-- What the receiver reads of the control channel before the transfer begins is all that moves its numbers. -/
theorem Intact.read {b : Bytes} (h : v.stage ≠ .offer → v.stage ≠ .offered → Intact v.conf v'.conf)
    (hsit : Situation Γ v.conf v'.conf true v.stage v'.stage w.down w.up) :
    v.stage ≠ .offer → v.stage ≠ .offered → Intact v.conf (Receiver.got v' b).conf := by
  intro hoffer hoffered
  have hintact := h hoffer hoffered
  obtain ⟨stage, live, conf⟩ := v
  obtain ⟨stage', live', len, conf'⟩ := v'
  dsimp only at hsit hoffer hoffered hintact
  cases stage' with
  | offer =>
    generalize w.down = down, w.up = up at hsit
    cases hsit with
    | offer _ => exact absurd rfl hoffer
    | offered _ => exact absurd rfl hoffered
    | accepted _ _ _ _ => exact absurd rfl hoffered
    | answered _ _ hwork => cases hwork
    | data _ _ hwork => cases hwork
    | answeredAhead _ hturn => exact absurd hturn (by unfold Receiver.turn; split <;> exact nofun)
    | dataAhead _ hturn => exact absurd hturn (by unfold Receiver.turn; split <;> exact nofun)
  | _ => exact hintact

/-- The receiver makes a call, and it succeeds. -/
theorem Smooth.right (h : Smooth Γ t v v' w) (ha : Addressable v.conf) (hpos : 0 < (chunkContext v.conf).chunkSize)
    (hhold : Receiver.hold v' s) (hguar : (Receiver.role Γ).guar v' s call)
    (hmakes : v'.stage = .making → ∀ fd buf, call = .send .stream fd buf → buf = recvHeader 1 0)
    (hstep : reliable Γ t .right e w s call r w₁) :
    Receiver.relies v' call r ∧ Smooth Γ t v ((Receiver.role Γ).next v' s call r) w₁ := by
  obtain ⟨hrelies, hfits⟩ := h.fits.right h.live' h.accepted hhold hguar (network_of_reliable hstep)
  obtain ⟨hsit, _⟩ := h.fits.exact h.live h.live' h.accepted
  have haccepted : ((Receiver.role Γ).next v' s call r).stage ≠ .refused :=
    Receiver.stage_next call r h.accepted fun fd buf hcall hstage => hmakes hstage fd buf hcall
  obtain ⟨hsucc, hstep⟩ := hstep
  refine ⟨hrelies, ?_⟩
  -- a call that moves nothing
  have hstay (hnext : (Receiver.role Γ).next v' s call r = v') (hw : w₁ = w) :
      Smooth Γ t v ((Receiver.role Γ).next v' s call r) w₁ := by
    subst hw
    rw [hnext] at hfits haccepted ⊢
    exact ⟨hfits, h.live, h.live', haccepted, h.traffic, h.intact⟩
  cases call with
  | send ty fd buf =>
    cases ty with
    | stream =>
      obtain ⟨rfl, rfl⟩ := hstep
      have hnext : (Receiver.role Γ).next v' s (.send .stream fd buf) (some buf.length) = Receiver.sent Γ v' s buf :=
        if_pos (Nat.le_refl _)
      rw [hnext] at hfits haccepted ⊢
      have hlive : (Receiver.sent Γ v' s buf).live = v'.live := by
        unfold Receiver.sent
        split <;> (try split) <;> rfl
      by_cases hmaking : v'.stage = .making
      · obtain rfl : buf = recvHeader 1 0 := hmakes hmaking fd buf rfl
        have hturn : (Receiver.sent Γ v' s (recvHeader 1 0)).stage = Receiver.turn { s.conf with seq := 1 } := by
          unfold Receiver.sent
          rw [hmaking]
          exact congrArg Receiver.View.stage (if_pos rfl)
        have hmade := h.traffic
        rw [hmaking] at hsit hmade
        obtain ⟨_, _, hoffered, _⟩ := hsit.answerOffer (s := s) (by
          have hstored := hhold
          unfold Receiver.hold at hstored
          rw [hmaking] at hstored
          exact hstored)
        refine ⟨hfits, h.live, hlive.trans h.live', haccepted, ?_, fun _ hne => absurd hoffered hne⟩
        rw [hturn]
        rw [hoffered] at hmade ⊢
        cases hmade with
        | quiet hq _ _ _ => exact .quiet ⟨hq.data, hq.coming, hq.spoiled⟩ nofun (not_working_turn _) nofun
      · obtain ⟨htraffic, hintact⟩ := h.traffic.replied hsit hguar hmaking h.intact
        exact ⟨hfits, h.live, hlive.trans h.live', haccepted, htraffic, hintact⟩
    | dgram => exact hguar.elim
  | recv ty fd size peek =>
    cases ty with
    | stream =>
      obtain ⟨hr, rfl⟩ := hstep
      obtain ⟨b, rfl, hb⟩ := Option.map_eq_some_iff.1 hr
      change size ≤ b.1.length at hsucc
      cases peek with
      | true =>
        obtain ⟨rfl, hread⟩ := hguar
        refine hstay (if_pos ⟨hsucc, ?_⟩) rfl
        rw [hb]
        refine (hsit.expected hread fun hdown => ?_).symm
        rw [hb, hdown] at hsucc
        exact absurd hsucc (by decide)
      | false =>
        have hnext : (Receiver.role Γ).next v' s (.recv .stream fd size false) (some b) = Receiver.got v' b.1 := if_pos hsucc
        rw [hnext] at hfits haccepted ⊢
        have hdown : size ≤ w.down.length := by
          rw [hb, List.length_take] at hsucc
          omega
        exact ⟨hfits, h.live, (live_receiver_got b.1).trans h.live', haccepted, h.traffic.read hsit hguar hdown rfl rfl rfl,
          Intact.read h.intact hsit⟩
    | dgram =>
      obtain ⟨d, rest, hd, hr, rfl⟩ := hstep
      obtain ⟨b, rfl, hb⟩ := Option.map_eq_some_iff.1 hr
      change size ≤ b.1.length at hsucc
      have hnext : (Receiver.role Γ).next v' s (.recv .dgram fd size peek) (some b) = Receiver.collected v' b.1 := if_pos hsucc
      rw [hnext, hb] at hfits haccepted ⊢
      obtain ⟨hlen, htraffic⟩ := h.traffic.collected hsit hhold hguar hd
      have hlive : (Receiver.collected v' (d.take size)).live = v'.live := by
        unfold Receiver.collected
        split <;> rfl
      refine ⟨hfits, h.live, hlive.trans h.live', haccepted, htraffic, fun hoffer hoffered => ?_⟩
      have hintact := h.intact hoffer hoffered
      obtain ⟨stage', live', len, conf'⟩ := v'
      cases stage' with
      | data crc tries got =>
        obtain ⟨hlt, hsize, _, hinside⟩ := hguar
        refine hintact.collect (hsit.inStep_of_working (.data got)) ha hhold.1.mapped.length hinside ?_
        rw [hlen]
        dsimp only at hlt hsize ⊢
        omega
      | _ => exact hguar.elim
  | sysconf =>
    obtain rfl : w₁ = w := hstep
    obtain ⟨crc, tries, hstage, _⟩ := hguar
    obtain ⟨page, rfl⟩ := Option.isSome_iff_exists.1 hsucc
    have hnext : (Receiver.role Γ).next v' s .sysconf (some page) = { v' with stage := .sync crc tries page } := by
      change Receiver.after v' .sysconf (some page) = _
      simp only [Receiver.after, hstage]
    rw [hnext] at hfits haccepted ⊢
    have htraffic := h.traffic
    rw [hstage] at hsit htraffic
    have hin := hsit.inStep_of_working (.data _)
    rw [hin.deal.numbers.chunk hin.seq] at htraffic
    exact ⟨hfits, h.live, h.live', haccepted, htraffic.synced hpos, h.intact⟩
  | msync offset size =>
    obtain rfl : w₁ = w := hstep
    obtain ⟨crc, tries, page, hstage, _⟩ := hguar
    obtain rfl : r = true := hsucc
    have hnext : (Receiver.role Γ).next v' s (.msync offset size) true = { v' with stage := .verdict crc tries } := by
      change Receiver.after v' (.msync offset size) true = _
      simp only [Receiver.after, hstage]
    rw [hnext] at hfits haccepted ⊢
    have htraffic := h.traffic
    rw [hstage] at htraffic
    exact ⟨hfits, h.live, h.live', haccepted, htraffic.verdict, h.intact⟩
  | ftruncate file size =>
    obtain rfl : w₁ = { w with disk := some size } := hstep
    obtain rfl : r = true := hsucc
    have hnext : (Receiver.role Γ).next v' s (.ftruncate file size) true = { v' with length := some size } := rfl
    rw [hnext] at hfits haccepted ⊢
    have htraffic := h.traffic
    have hstage : v'.stage = .making := hguar.1
    refine ⟨hfits, h.live, h.live', haccepted, ?_, h.intact⟩
    rw [hstage] at htraffic
    change Traffic Γ t v.conf v'.conf _ v.stage v'.stage
    rw [hstage]
    generalize v.stage = stage at htraffic ⊢
    cases htraffic with
    | quiet hq hstage hwork hseq => exact .quiet ⟨hq.data, hq.coming, hq.spoiled⟩ hstage hwork hseq
    | whole _ hstage _ _ _ => rcases hstage with hstage | ⟨_, hstage⟩ <;> cases hstage
    | ahead _ _ hturn _ => exact absurd hturn (by unfold Receiver.turn; split <;> exact Receiver.Stage.noConfusion)
  | fstatvfs file =>
    refine hstay rfl ?_
    cases r with
    | none => exact absurd hsucc Bool.false_ne_true
    | some info => exact hstep.2
  | fstat file => exact hstay rfl hstep.2
  | fopen | fclose | stat | mmap => exact hstay rfl hstep
  | poll ty fd event timeout =>
    refine hstay (if_pos hsucc) ?_
    cases ty <;> cases event <;> first | exact hstep | exact hstep.2
  | malloc size => exact hstay (if_pos hsucc) hstep
  | calloc nmemb size => exact hstay (if_pos hsucc) hstep
  | _ => exact hstay (if_pos hsucc) hstep

end

end Joint

end RufShare
