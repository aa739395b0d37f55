import RufShare.Lemmas.Acceptance
import RufShare.Lemmas.Ready
import RufShare.Lemmas.Rounds
import RufShare.Resumption.Inevitable
import RufShare.Theorems.Lockstep

/-!
# Every transfer completes

On a network on which every call succeeds a sender and a receiver come, whatever the order of their steps, to a state where both
report success and the files are equal. The data channel may alter transmissions of a chunk, as long as the checksum shows it and
there are fewer in a row than the parties have tries.
-/

namespace RufShare

open Resumption Joint Slice

open LockstepAux

namespace CompletionAux

/-! ## The offer is accepted -/

/-- The receiver has not answered the offer. -/
inductive Offering : Receiver.Stage → Prop where
  | offer : Offering .offer
  | offerInfo : Offering .offerInfo
  | making : Offering .making

theorem not_offering_turn (c : InitConfig) : ¬Offering (Receiver.turn c) := by
  intro h
  unfold Receiver.turn at h
  split at h
  · cases h
  · cases h

/-- What a call leaves of a receiver's view, unless it is the answer to the offer. -/
structure Frame (v v₁ : Receiver.View) (call : Call) : Prop where
  addrs : v₁.conf.addrs = v.conf.addrs
  tries : v₁.conf.tfTrycount = v.conf.tfTrycount
  offering : Offering v₁.stage ↔ Offering v.stage
  making : v₁.stage = .making → v.stage = .making ∨ v.stage = .offerInfo ∧ ∃ fd size, call = .recv .stream fd size false

variable {Γ : Libcrc} {t : Nat} {garbage : SendArgs} {rounds rounds' : Nat} {sender receiver : Proc}

theorem frame_next (v : Receiver.View) (s : Proc) (call : Call) (r : call.Answer)
    (hcall : v.stage = .making → ∀ fd buf, call ≠ .send .stream fd buf) : Frame v ((Receiver.role Γ).next v s call r) call := by
  have hrefl : Frame v v call := ⟨rfl, rfl, Iff.rfl, .inl⟩
  obtain ⟨stage, live, len, conf⟩ := v
  refine (Receiver.role Γ).next_cases (p := fun v₁ => Frame ⟨stage, live, len, conf⟩ v₁ call) call r hrefl ⟨rfl, rfl, Iff.rfl, .inl⟩
    ?_ ?_ ?_ ?_ ?_
  · rintro fd buf rfl
    change Frame _ (Receiver.sent Γ _ s buf) _
    have hturn (c : InitConfig) (stage : Receiver.Stage) (h : ¬Offering stage) : Offering (Receiver.turn c) ↔ Offering stage :=
      iff_of_false (not_offering_turn c) h
    have hmaking (c : InitConfig) {P : Prop} (h : Receiver.turn c = .making) : P :=
      absurd (h ▸ Offering.making) (not_offering_turn c)
    cases stage with
    | making => exact absurd rfl (hcall rfl fd buf)
    | verdict crc tries =>
      unfold Receiver.sent
      dsimp only
      split
      · exact ⟨rfl, rfl, hturn _ _ nofun, fun h => hmaking _ h⟩
      · exact ⟨rfl, rfl, iff_of_false nofun nofun, nofun⟩
    | answer crc => exact ⟨rfl, rfl, iff_of_false nofun nofun, nofun⟩
    | report crc => exact ⟨rfl, rfl, iff_of_false nofun nofun, nofun⟩
    | _ => exact hrefl
  · intro _ _ _
    exact hrefl
  · rintro fd size b rfl _
    change Frame _ (Receiver.got _ b) _
    cases stage with
    | offer => exact ⟨rfl, rfl, iff_of_true .offerInfo .offer, nofun⟩
    | offerInfo => exact ⟨rfl, rfl, iff_of_true .making .offerInfo, fun _ => .inr ⟨rfl, fd, size, rfl⟩⟩
    | flow =>
      unfold Receiver.got
      dsimp only
      split
      · exact ⟨rfl, rfl, iff_of_false nofun nofun, nofun⟩
      · exact ⟨rfl, rfl, iff_of_false nofun nofun, nofun⟩
    | final => exact ⟨rfl, rfl, iff_of_false nofun nofun, nofun⟩
    | finalInfo crc => exact ⟨rfl, rfl, iff_of_false nofun nofun, nofun⟩
    | _ => exact hrefl
  · intro _ _ _ b _ _
    change Frame _ (Receiver.collected _ b) _
    cases stage with
    | data crc tries got => exact ⟨rfl, rfl, iff_of_false nofun nofun, nofun⟩
    | _ => exact hrefl
  · change Frame _ (Receiver.after _ call r) _
    have hdead : Frame ⟨stage, live, len, conf⟩ ⟨stage, false, len, conf⟩ call := ⟨rfl, rfl, Iff.rfl, .inl⟩
    unfold Receiver.after
    split
    · split
      · exact ⟨rfl, rfl, Iff.rfl, .inl⟩
      · exact hrefl
    case h_8 =>
      cases stage with
      | data crc tries got => exact ⟨rfl, rfl, iff_of_false nofun nofun, nofun⟩
      | _ => exact hrefl
    case h_9 =>
      cases stage with
      | sync crc tries page => exact ⟨rfl, rfl, iff_of_false nofun nofun, nofun⟩
      | _ => exact hrefl
    case h_10 =>
      split
      · exact hrefl
      · exact hdead
    all_goals exact hrefl

/-- What the receiver has of the offer. `a` is its last read. -/
structure Agreed (garbage : SendArgs) (sender receiver : Proc) (v : Receiver.View) (a : Acceptance.View) : Prop where
  tries : v.conf.tfTrycount = receiver.conf.tfTrycount
  answered : Offering v.stage → a.answered = false
  info : v.stage = .making → a.info = infostr (offered sender)
  addrs : ¬Offering v.stage → v.conf.addrs = acceptedAddrs garbage receiver.conf (infostr (offered sender))

section

variable {v : Sender.View} {v' : Receiver.View} {a : Acceptance.View} {w w₁ : Link} {s : Proc} {call : Call} {r : call.Answer}
  {e : Option Call}

/-- Before the answer the receiver pushes nothing and reads the offer only. -/
theorem guar_offering (hoffering : Offering v'.stage) (hguar : (Receiver.role Γ).guar v' s call) :
    (∀ fd buf, call = .send .stream fd buf → v'.stage = .making) ∧
    (∀ fd size, call = .recv .stream fd size false → v'.stage ≠ .making) := by
  obtain ⟨stage, live, len, conf⟩ := v'
  refine ⟨?_, ?_⟩
  · rintro fd buf rfl
    cases hoffering with
    | making => rfl
    | _ => exact hguar.elim
  · rintro fd size rfl hmaking
    obtain rfl : stage = .making := hmaking
    exact hguar.elim

theorem Agreed.next (h : Agreed garbage sender receiver v' a) (hsmooth : Smooth Γ t v v' w)
    (hconf : ({ v.conf with seq := 1 } : InitConfig) = offered sender) (hguar : (Receiver.role Γ).guar v' s call)
    (hanswer : v'.stage = .making → ∀ fd buf, call = .send .stream fd buf →
      Acceptance.Accepts garbage receiver.conf a.info s buf ∧ buf = recvHeader 1 0)
    (hstep : reliable Γ t .right e w s call r w₁) :
    Agreed garbage sender receiver ((Receiver.role Γ).next v' s call r) (Acceptance.next a call r) := by
  by_cases hans : v'.stage = .making ∧ ∃ fd buf, call = .send .stream fd buf
  · obtain ⟨hmaking, fd, buf, rfl⟩ := hans
    obtain ⟨haccepts, hbuf⟩ := hanswer hmaking fd buf rfl
    obtain ⟨_, rfl, _⟩ := hstep
    have hnext : (Receiver.role Γ).next v' s (.send .stream fd buf) (some buf.length) =
        { v' with stage := Receiver.turn { s.conf with seq := 1 }, conf := core { s.conf with seq := 1 } } := by
      have hsent : (Receiver.role Γ).next v' s (.send .stream fd buf) (some buf.length) = Receiver.sent Γ v' s buf :=
        if_pos (Nat.le_refl _)
      rw [hsent, Receiver.sent, hmaking]
      exact if_pos hbuf
    rw [hnext]
    refine ⟨haccepts.tries, fun hoffering => absurd hoffering (not_offering_turn _), fun hturn => ?_, fun _ => ?_⟩
    · change Receiver.turn _ = _ at hturn
      exact absurd (hturn ▸ Offering.making) (not_offering_turn _)
    · rw [← h.info hmaking]
      exact haccepts.addrs
  · have hframe := frame_next (Γ := Γ) v' s call r fun hmaking fd buf hcall => hans ⟨hmaking, fd, buf, hcall⟩
    have hquiet (hoffering : Offering v'.stage) (fd : Sockfd) (buf : Bytes) : call ≠ .send .stream fd buf :=
      fun hcall => hans ⟨(guar_offering hoffering hguar).1 fd buf hcall, fd, buf, hcall⟩
    generalize (Receiver.role Γ).next v' s call r = v₁ at hframe
    refine ⟨hframe.tries.trans h.tries, fun hoffering => ?_, fun hmaking => ?_, fun hoffering => ?_⟩
    · rw [hframe.offering] at hoffering
      have hsend := hquiet hoffering
      have hanswered := h.answered hoffering
      unfold Acceptance.next
      split
      · exact hanswered
      · exact absurd rfl (hsend _ _)
      · exact hanswered
    · rcases hframe.making hmaking with hstage | ⟨hstage, fd, size, rfl⟩
      · have hoffering : Offering v'.stage := hstage ▸ Offering.making
        have hsend := hquiet hoffering
        have hread := (guar_offering hoffering hguar).2
        have hinfo := h.info hstage
        unfold Acceptance.next
        split
        · exact absurd hstage (hread _ _ rfl)
        · exact absurd rfl (hsend _ _)
        · exact hinfo
      · -- the infostring of the offer
        obtain ⟨hsit, _⟩ := hsmooth.fits.exact hsmooth.live hsmooth.live' hsmooth.accepted
        obtain ⟨hsucc, hr, _⟩ := hstep
        obtain ⟨b, rfl, hb⟩ := Option.map_eq_some_iff.1 hr
        have hsize : size = infostrSize := by
          obtain ⟨stage', live', len, conf'⟩ := v'
          obtain rfl : stage' = .offerInfo := hstage
          exact hguar
        rw [hstage] at hsit
        change b.1 = _
        rw [hb, ← hconf]
        change size ≤ b.1.length at hsucc
        rw [hb, hsize] at hsucc
        have hturn (c : InitConfig) {P : Prop} (h : Receiver.Stage.offerInfo = Receiver.turn c) : P :=
          absurd (h ▸ Offering.offerInfo) (not_offering_turn c)
        generalize v.stage = stage, w.down = down, w.up = up at hsit hsucc ⊢
        cases hsit with
        | offerInfo _ _ =>
          have hlen : (infostr v.conf).length = infostrSize := length_packIntoInfostring _
          rw [hsize, ← hlen, List.take_length]
          rfl
        | accepted _ _ _ h | answeredAhead _ h | dataAhead _ h => exact hturn _ h
        | answered _ _ hwork | data _ _ hwork => cases hwork
    · rw [hframe.offering] at hoffering
      rw [hframe.addrs]
      exact h.addrs hoffering

end

end CompletionAux

/-- What a sender and a receiver need to complete a transfer: a file that is not a multiple of its chunks and whose addresses do not
wrap, `t` tries each, and valid addresses, the receiver's being those it has after the offer. -/
structure Compatible (t : Nat) (garbage : SendArgs) (sender receiver : Proc) : Prop where
  ready : ReadyToPush sender
  small : sender.conf.filec.size / sender.conf.chsize.toNat * sender.conf.chsize.toNat < 2 ^ 32
  part : 0 < sender.conf.filec.size % sender.conf.chsize.toNat
  pos : 0 < t
  tries : t ≤ sender.conf.tfTrycount
  tries' : t ≤ receiver.conf.tfTrycount
  addrs : checkAddrs sender.conf.addrs = .success
  addrs' : checkAddrs (acceptedAddrs garbage receiver.conf (infostr sender.conf)) = .success

/-- How many chunks the sender's file has. -/
def chunks (sender : Proc) : Nat := sender.conf.filec.size / sender.conf.chsize.toNat + 1

namespace CompletionAux

/-! ## The offer -/

theorem addrs_counted (s : Proc) (counts : UInt32 × UInt16) :
    (core (Sender.first (Sender.counted s counts)).conf).addrs = s.conf.addrs ∧
    (core (Sender.first (Sender.counted s counts)).conf).tfTrycount = s.conf.tfTrycount := ⟨rfl, rfl⟩

theorem addrs_offered (s : Proc) : (offered s).addrs = s.conf.addrs ∧ (offered s).tfTrycount = s.conf.tfTrycount := addrs_counted s _

theorem infostr_eq {c c' : InitConfig} (h : c.addrs = c'.addrs) : infostr c = infostr c' := by
  unfold infostr sendArgs
  rw [h]

section

variable {Γ : Libcrc} {t : Nat} {garbage : SendArgs} {sender receiver : Proc} {c : InitConfig}

/-- A file that is not a multiple of its chunks has fewer than half as many chunks as can be. -/
theorem Compatible.chunks_lt (h : Compatible t garbage sender receiver) : chunks sender + 1 < 2 ^ 32 := by
  have hsmall := h.small
  have hpart := h.part
  have hchsize := h.ready.chsize
  have htwo : 2 ≤ sender.conf.chsize.toNat := by
    refine Nat.lt_of_le_of_ne hchsize fun hone => ?_
    rw [← hone, Nat.mod_one] at hpart
    exact absurd hpart (Nat.lt_irrefl 0)
  have := Nat.mul_le_mul_left (sender.conf.filec.size / sender.conf.chsize.toNat) htwo
  unfold chunks
  omega

/-- The configuration of the sender is the one of the offer but for the counter. -/
structure Offers (sender : Proc) (c : InitConfig) : Prop where
  chsize : c.chsize = sender.conf.chsize
  pchsize : c.pchsize.toNat = sender.conf.filec.size % sender.conf.chsize.toNat
  chcount : c.chcount.toNat = chunks sender
  size : c.filec.size = sender.conf.filec.size
  buf : c.filec.mfile.buf = sender.conf.filec.mfile.buf
  addrs : c.addrs = sender.conf.addrs
  tries : c.tfTrycount = sender.conf.tfTrycount
  mapped : Mapped c

theorem offers_of_conf (h : ReadyToPush sender) (hconf : ({ c with seq := 1 } : InitConfig) = offered sender) : Offers sender c := by
  obtain ⟨hchsize, hsize, hbuf⟩ := fields_offered sender
  obtain ⟨hcount, hpart⟩ := toNat_offered h
  obtain ⟨haddrs, htries⟩ := addrs_offered sender
  have hmapped := (shares_offered h).mapped
  rw [← hconf] at hchsize hsize hbuf hcount hpart haddrs htries hmapped
  exact ⟨hchsize, hpart, hcount, hsize, hbuf, haddrs, htries, hmapped.isOpen, hmapped.size, hmapped.length, hmapped.offered, hmapped.pos⟩

theorem Offers.regular (h : Offers sender c) (hcompatible : Compatible t garbage sender receiver) : Regular c where
  tiles := by
    have hchunks := h.chcount
    have hpart := h.pchsize
    unfold chunks at hchunks
    rw [← h.chsize, ← h.size] at hchunks hpart
    refine TilingAux.tiles_of_small ?_ hchunks hpart ?_
    · rw [h.chsize, h.size]
      exact hcompatible.small
    · rw [h.chsize]
      exact hcompatible.ready.chsize
  addressable := by
    refine ⟨?_, ?_⟩
    · have := Compatible.chunks_lt hcompatible
      rw [h.chcount]
      omega
    · rw [h.chcount, h.chsize, chunks, Nat.add_sub_cancel]
      exact hcompatible.small
  chsize := by
    rw [h.chsize]
    exact hcompatible.ready.chsize
  pchsize := by
    rw [h.pchsize]
    exact hcompatible.part

/-- The size of the file can be given to `fstatvfs` and `ftruncate`. -/
theorem Offers.size_lt (h : Offers sender c) (hcompatible : Compatible t garbage sender receiver) : c.filec.size < 2 ^ 64 - 1 := by
  have hsmall := hcompatible.small
  have hmod := Nat.mod_lt sender.conf.filec.size hcompatible.ready.chsize
  have hdiv := Nat.div_add_mod' sender.conf.filec.size sender.conf.chsize.toNat
  have hlt := sender.conf.chsize.toNat_lt
  rw [h.size]
  omega

end

/-! ## Under way -/

/-- Both parties run, and the receiver has what the sender has offered. -/
structure Underway (Γ : Libcrc) (t : Nat) (garbage : SendArgs) (sender receiver : Proc) (v : Sender.View)
    (x : Receiver.View × Acceptance.View) (w : Link) : Prop where
  smooth : Smooth Γ t v x.1 w
  conf : ({ v.conf with seq := 1 } : InitConfig) = offered sender
  agreed : Agreed garbage sender receiver x.1 x.2

/-- How the receiver's phases end when its calls succeed. -/
def Received (x : Receiver.View × Acceptance.View) (s : Proc) (stat : Status) : Prop :=
  (Receiver.Ends Receiver.Reported False x.1 s stat ∨ stat ≠ .success ∧ Receiver.Unconnected x.1) ∧ True

/-- The parties keep their roles under way, and have rounds left. -/
def Going (Γ : Libcrc) (t : Nat) (garbage : SendArgs) (sender receiver : Proc) (p : Pair Proc Call.Answer Status Link) : Prop :=
  p.Joint (Sender.role Γ).monitor ((Receiver.role Γ).monitor.prod (Acceptance.monitor garbage receiver.conf))
    (Sender.Ends Sender.Verified) Received (Underway Γ t garbage sender receiver) ∧
  p.left.Uncut (FewChunks (chunks sender)) ∧ p.right.Uncut (FewChunks (chunks sender))

section

variable {Γ : Libcrc} {t : Nat} {garbage : SendArgs} {rounds rounds' : Nat} {sender receiver : Proc} {v : Sender.View}
  {x : Receiver.View × Acceptance.View} {w w₁ : Link} {s s' : Proc} {call : Call} {r : call.Answer} {e : Option Call}

theorem going_start (h : Compatible t garbage sender receiver) (hrounds : chunks sender + 1 < rounds)
    (hrounds' : chunks sender + 1 < rounds') :
    Going Γ t garbage sender receiver (parties Γ garbage rounds rounds' startData startData sender receiver .empty) := by
  have hchunks := Compatible.chunks_lt h
  refine ⟨⟨{ stage := .offer, live := true, conf := offered sender },
    ({ stage := .offer, live := true, length := none, conf := receiver.conf }, { info := [], answered := false }), ?_, ?_, ?_⟩,
    uncut_pushPhases Γ hchunks hrounds, uncut_pullPhases Γ garbage hchunks hrounds'⟩
  · refine ⟨⟨.inr ⟨[], [], .offer ?_, ?_, ?_, rfl⟩, rfl, rfl, nofun, .quiet ⟨rfl, rfl, rfl⟩ nofun nofun nofun, fun hne => absurd rfl hne⟩,
      seq_offered sender, rfl, fun _ => rfl, nofun, fun hne => absurd .offer hne⟩
    · rw [← seq_offered sender]
    · exact Carries.nil (room_pos _ _)
    · exact Carries.nil (by decide)
  · exact Sender.sat_pushPhases rounds rfl rfl (shares_offered h.ready)
  · exact (Receiver.sat_pullPhases_startData garbage rounds' rfl rfl).prod (Acceptance.sat_pullPhases Γ garbage rounds')

theorem Underway.situation (h : Underway Γ t garbage sender receiver v x w) :
    Situation Γ v.conf x.1.conf true v.stage x.1.stage w.down w.up :=
  (h.smooth.fits.exact h.smooth.live h.smooth.live' h.smooth.accepted).1

/-- After the answer to the offer the receiver has the sender's numbers. -/
theorem numbers_of_situation {c c' : InitConfig} {live : Bool} {stage : Sender.Stage} {stage' : Receiver.Stage} {down up : Bytes}
    (h : Situation Γ c c' live stage stage' down up) (hnot : ¬Offering stage') : Numbers c c' := by
  cases h with
  | offer | offerCut | offered | offerInfo | making => exact absurd (by constructor) hnot
  | accepted _ _ hdeal _ => exact hdeal.numbers
  | flow hin | flowed hin | answer hin | answered hin | data hin => exact hin.deal.numbers
  | answeredAhead hahead | dataAhead hahead => exact hahead.deal.numbers
  | final hover | finalCut hover | finalSent hover | finalInfo hover | report hover | told hover | done hover =>
    exact hover.deal.numbers

/-- In the transfer the sender has counted its chunks. -/
theorem few_left (h : Underway Γ t garbage sender receiver v x w) (hready : ReadyToPush sender) (hhold : Sender.hold v s) :
    FewChunks (chunks sender) ⟨s, call, r⟩ := by
  intro hphase
  change s.phase = .flow at hphase
  have hshares (hshares : Receiver.Shares v.conf s) : s.conf.chcount.toNat ≤ chunks sender := by
    rw [← (offers_of_conf hready h.conf).chcount, ← hshares.core]
    exact Nat.le_refl _
  have hhandshake (h : s.phase = .handshake) {P : Prop} : P := Phase.noConfusion (h.symm.trans hphase)
  obtain ⟨stage, live, conf⟩ := v
  cases stage with
  | offer | offered => exact hhandshake hhold.2
  | declined => exact hhandshake hhold
  | _ => exact hshares hhold.1

/-- And the receiver has the same number. -/
theorem few_right (h : Underway Γ t garbage sender receiver v x w) (hready : ReadyToPush sender) (hhold : Receiver.hold x.1 s)
    (hphase : x.2.answered = false → s.phase = .handshake) : FewChunks (chunks sender) ⟨s, call, r⟩ := by
  intro hflow
  change s.phase = .flow at hflow
  by_cases hoffering : Offering x.1.stage
  · exact Phase.noConfusion ((hphase (h.agreed.answered hoffering)).symm.trans hflow)
  · have hnumbers := numbers_of_situation h.situation hoffering
    have haccepted := h.smooth.accepted
    have hshares (hshares : Receiver.Shares x.1.conf s) : s.conf.chcount.toNat ≤ chunks sender := by
      rw [← (offers_of_conf hready h.conf).chcount, ← hnumbers.chcount, ← hshares.core]
      exact Nat.le_refl _
    obtain ⟨⟨stage, live, len, conf⟩, a⟩ := x
    cases stage with
    | offer | offerInfo | making => exact absurd (by constructor) hoffering
    | refused => exact absurd rfl haccepted
    | _ => exact hshares hhold.1

/-- The receiver accepts the offer. -/
theorem answer_accepts (h : Underway Γ t garbage sender receiver v x w) (hcompatible : Compatible t garbage sender receiver)
    (hhold : Receiver.hold x.1 s)
    (hguar : x.2.answered = false → ∀ fd buf, call = .send .stream fd buf → Acceptance.Accepts garbage receiver.conf x.2.info s buf)
    (hmaking : x.1.stage = .making) (fd : Sockfd) (buf : Bytes) (hcall : call = .send .stream fd buf) :
    Acceptance.Accepts garbage receiver.conf x.2.info s buf ∧ buf = recvHeader 1 0 := by
  have haccepts := hguar (h.agreed.answered (hmaking ▸ .making)) fd buf hcall
  have hoffers := offers_of_conf hcompatible.ready h.conf
  have hsit := h.situation
  unfold Receiver.hold at hhold
  rw [hmaking] at hsit hhold
  have hnumbers : Numbers v.conf x.1.conf := by
    have hturn (c : InitConfig) {P : Prop} (h : Receiver.Stage.making = Receiver.turn c) : P :=
      absurd (h ▸ Offering.making) (not_offering_turn c)
    generalize v.stage = stage, w.down = down, w.up = up at hsit
    cases hsit with
    | making _ hnumbers => exact hnumbers
    | accepted _ _ _ h | answeredAhead _ h | dataAhead _ h => exact hturn _ h
    | answered _ _ hwork | data _ _ hwork => cases hwork
  have hsize : s.conf.filec.size = v.conf.filec.size := by
    rw [hhold.size, hnumbers.chsize, hnumbers.pchsize, hnumbers.chcount, ← hoffers.mapped.offered]
  refine ⟨haccepts, haccepts.ack ?_ ?_⟩
  · rw [hsize]
    exact Nat.ne_of_gt hoffers.mapped.pos
  · rw [hsize]
    exact hoffers.size_lt hcompatible

/-- There is room for the file. -/
theorem roomy_of_reliable (ha : reliable Γ t .right e w s call r w₁) : Roomy s call r := by
  obtain ⟨_, ha⟩ := ha
  cases call with
  | fstatvfs file =>
    cases r with
    | none => trivial
    | some avail => exact ha.1
  | _ => trivial

theorem Going.step (hcompatible : Compatible t garbage sender receiver) {p q : Pair Proc Call.Answer Status Link}
    (h : Going Γ t garbage sender receiver p) (hs : Pair.Step (reliable Γ t) p q) : Going Γ t garbage sender receiver q := by
  obtain ⟨⟨v, x, hunder, hleft, hright⟩, hcut, hcut'⟩ := h
  have hoffers := offers_of_conf hcompatible.ready hunder.conf
  cases hs with
  | left ha =>
    obtain ⟨hhold, hguar, hk⟩ := hleft
    refine ⟨⟨_, x, ⟨?_, ?_, hunder.agreed⟩, hk _ fun _ => trivial, hright⟩, hcut _ ?_, hcut'⟩
    · exact hunder.smooth.left hcompatible.pos (hhold rfl) (hguar rfl).2 ha
    · exact (Sender.conf_next v _ _ _).trans hunder.conf
    · exact few_left hunder hcompatible.ready (hhold rfl)
  | right ha =>
    obtain ⟨⟨hhold, _⟩, ⟨hguar, hanswer⟩, hk⟩ := hright
    have hbound : (Receiver.role Γ).free x.1 = false := decide_eq_false hunder.smooth.accepted
    have hhold := hhold hbound
    obtain ⟨_, hguar⟩ := hguar hbound
    have haccepts := answer_accepts hunder hcompatible hhold (fun hanswered => (hanswer hanswered).2)
    have hregular := hoffers.regular hcompatible
    obtain ⟨hrelies, hsmooth⟩ := hunder.smooth.right hregular.addressable hregular.chunk_pos hhold hguar
      (fun hmaking fd buf hcall => (haccepts hmaking fd buf hcall).2) ha
    have hnext (s : Proc) (call : Call) (r : call.Answer) : (Receiver.role Γ).monitor.next x.1 s call r = (Receiver.role Γ).next x.1 s call r :=
      if_neg (by rw [hbound]; decide)
    refine ⟨⟨v, _, ⟨?_, hunder.conf, ?_⟩, hleft, hk _ ⟨fun _ => hrelies, ha.1, ?_⟩⟩, hcut, hcut' _ ?_⟩
    · change Smooth Γ t v ((Receiver.role Γ).monitor.next x.1 _ _ _) _
      rw [hnext]
      exact hsmooth
    · change Agreed garbage sender receiver ((Receiver.role Γ).monitor.next x.1 _ _ _) (Acceptance.next x.2 _ _)
      rw [hnext]
      exact hunder.agreed.next hunder.smooth hunder.conf hguar haccepts ha
    · exact roomy_of_reliable ha
    · exact few_right hunder hcompatible.ready hhold fun hanswered => (hanswer hanswered).1

/-! ## No party is stuck -/

/-- The receiver is at a call, or has failed to go on. -/
theorem hold_of_received (h : Received x s' stat) (hnot : ¬Receiver.Unconnected x.1) (haccepted : x.1.stage ≠ .refused) :
    Receiver.hold x.1 s' ∧ (stat = .success → Receiver.Reported x.1 s') ∧ (stat ≠ .success → Receiver.Stuck x.1) := by
  obtain ⟨hhold, hsuccess, hstuck⟩ := (h.1.resolve_right fun h => hnot h.2).resolve_left haccepted
  exact ⟨hhold, fun h => (hsuccess h).2, fun hne => (hstuck hne).resolve_right id⟩

/-- The addresses the receiver has stored are valid. -/
theorem Underway.connected (h : Underway Γ t garbage sender receiver v x w) (hcompatible : Compatible t garbage sender receiver) :
    ¬Receiver.Unconnected x.1 := by
  rintro ⟨hstage, hinvalid⟩
  refine hinvalid ?_
  rw [h.agreed.addrs (by rw [hstage]; exact not_offering_turn _), infostr_eq (addrs_offered sender).1]
  exact hcompatible.addrs'

/-- Both parties report success, and the files are equal. -/
def Completed (sender : Proc) (p : Pair Proc Call.Answer Status Link) : Prop :=
  p.left.result = some .success ∧ p.right.result = some .success ∧
    p.right.state.conf.filec.mfile.buf = sender.conf.filec.mfile.buf

/-- While the sender waits the receiver can go on, or both are done. -/
theorem right_goes {right : Tree Status} (h : Underway Γ t garbage sender receiver v x w)
    (hcompatible : Compatible t garbage sender receiver) (hhold : Sender.hold v s) (hwaits : Waits v w.up)
    (hright : right.Sat ((Receiver.role Γ).monitor.prod (Acceptance.monitor garbage receiver.conf)) x Received)
    (hcut : right.Uncut (FewChunks (chunks sender))) (e : Option Call) :
    (∃ s' call k r w', right = .call s' call k ∧ reliable Γ t .right e w s' call r w') ∨
    (∃ s', right = .ret s' .success ∧ Receiver.hold x.1 s' ∧ Receiver.Reported x.1 s') := by
  have hoffers := offers_of_conf hcompatible.ready h.conf
  have hbound : (Receiver.role Γ).free x.1 = false := decide_eq_false h.smooth.accepted
  cases right with
  | cut s' => exact hcut.elim
  | call s' call k =>
    obtain ⟨⟨hhold', _⟩, ⟨hguar, _⟩, _⟩ := hright
    obtain ⟨r, w', ha⟩ := answers_of_ready Γ t (e := e) (h.smooth.right_ready hwaits (hhold' hbound) (hguar hbound).2)
    exact .inl ⟨s', call, k, r, w', rfl, ha⟩
  | ret s' stat =>
    obtain ⟨hhold', hsuccess, hstuck⟩ := hold_of_received hright (h.connected hcompatible) h.smooth.accepted
    by_cases hstat : stat = .success
    · subst hstat
      exact .inr ⟨s', rfl, hhold', hsuccess rfl⟩
    · refine absurd (hstuck hstat) (h.smooth.right_going (hoffers.regular hcompatible) hhold hhold' hcompatible.pos ?_)
      rw [h.agreed.tries]
      exact hcompatible.tries'

/-- The receiver keeps what it holds, wherever it is. -/
theorem hold_right {right : Tree Status} (h : Underway Γ t garbage sender receiver v x w)
    (hcompatible : Compatible t garbage sender receiver)
    (hright : right.Sat ((Receiver.role Γ).monitor.prod (Acceptance.monitor garbage receiver.conf)) x Received) :
    Receiver.hold x.1 right.state := by
  have hbound : (Receiver.role Γ).free x.1 = false := decide_eq_false h.smooth.accepted
  cases right with
  | cut s' => exact hright.1 hbound
  | call s' call k => exact hright.1.1 hbound
  | ret s' stat => exact (hold_of_received hright (h.connected hcompatible) h.smooth.accepted).1

theorem Going.progress (hcompatible : Compatible t garbage sender receiver) {p : Pair Proc Call.Answer Status Link}
    (h : Going Γ t garbage sender receiver p) : Completed sender p ∨ ∃ q, Pair.Step (reliable Γ t) p q := by
  obtain ⟨l, r, w⟩ := p
  obtain ⟨⟨v, x, hunder, hleft, hright⟩, hcut, hcut'⟩ := h
  have hoffers := offers_of_conf hcompatible.ready hunder.conf
  have hregular := hoffers.regular hcompatible
  have hsit := hunder.situation
  cases l with
  | cut s => exact hcut.elim
  | call s call k =>
    obtain ⟨hhold, hguar, _⟩ := hleft
    rcases hunder.smooth.left_ready (hhold rfl) (hguar rfl).2 with hready | ⟨hread, hup⟩
    · obtain ⟨r', w', ha⟩ := answers_of_ready Γ t (e := r.pending) hready
      exact .inr ⟨_, .left ha⟩
    · rcases right_goes hunder hcompatible (hhold rfl) (.inl ⟨hread, hup⟩) hright hcut' (some call) with
        ⟨s', call', k', r', w', rfl, ha⟩ | ⟨s', rfl, _, ack, hstage⟩
      · exact .inr ⟨_, .right ha⟩
      · rw [hstage] at hsit
        exact absurd hup (hsit.reported hread)
  | ret s stat =>
    obtain ⟨hhold, hsuccess, hstuck⟩ := hleft
    by_cases hstat : stat = .success
    · subst hstat
      obtain ⟨_, hdone⟩ := hsuccess rfl
      rcases right_goes hunder hcompatible hhold (.inr hdone) hright hcut' none with
        ⟨s', call', k', r', w', rfl, ha⟩ | ⟨s', rfl, hhold', ack, hstage⟩
      · exact .inr ⟨_, .right ha⟩
      · refine .inl ⟨rfl, rfl, ?_⟩
        have hintact := hunder.smooth.intact (by rw [hdone]; exact nofun) (by rw [hdone]; exact nofun)
        have hmapped : Receiver.Shares x.1.conf s' := by
          unfold Receiver.hold at hhold'
          rw [hstage] at hhold'
          exact hhold'.1
        rw [show v.stage = .done true from hdone, hstage] at hsit
        have hover : Over Γ v.conf x.1.conf := by
          generalize w.down = down, w.up = up, true = verified at hsit
          cases hsit with
          | done hover _ => exact hover
        change s'.conf.filec.mfile.buf = _
        rw [hmapped.buf_eq, (hintact.same hover hregular hoffers.mapped hmapped.mapped).2, hoffers.buf]
    · refine absurd (hstuck hstat) (hunder.smooth.left_going hregular hhold hcompatible.pos ?_ ?_
        (hold_right hunder hcompatible hright))
      · rw [hoffers.tries]
        exact hcompatible.tries
      · rw [hoffers.addrs]
        exact hcompatible.addrs

end

end CompletionAux

open CompletionAux

/-- Whatever the order of the steps of a sender and a receiver that fit each other, and whatever the answers of a network on which
every call succeeds, both come to report success, and the receiver's file is the sender's; no run stops before. Fewer than `t`
transmissions of a chunk in a row may be altered. -/
theorem transfer_completes (Γ : Libcrc) {t : Nat} {garbage : SendArgs} {rounds rounds' : Nat} {sender receiver : Proc}
    (h : Compatible t garbage sender receiver) (hrounds : chunks sender + 1 < rounds) (hrounds' : chunks sender + 1 < rounds') :
    Inevitable (Pair.Step (reliable Γ t)) (Completed sender)
      (parties Γ garbage rounds rounds' startData startData sender receiver .empty) ∧
    ∀ q, Pair.Reaches (reliable Γ t) (parties Γ garbage rounds rounds' startData startData sender receiver .empty) q →
      (∀ u, ¬Pair.Step (reliable Γ t) q u) → Completed sender q := by
  have hinevitable := Pair.inevitable (fun _ _ => Going.step h) (fun _ => Going.progress h)
    (going_start (Γ := Γ) h hrounds hrounds')
  refine ⟨hinevitable, fun q hq hstop => hinevitable.of_stuck ?_ hq hstop⟩
  rintro p ⟨hleft, hright, _⟩ u hs
  cases hs with
  | left _ => cases hleft
  | right _ => cases hright

namespace CompletionRun

/-- A sender of one byte in chunks of two, with two tries. -/
def pusher : Proc := ⟨{ LockstepRun.pusher.conf with tfTrycount := 2 }, .setup⟩

def puller : Proc := ⟨{ Sample.receiver with tfTrycount := 2 }, .setup⟩

theorem compatible : Compatible 2 Sample.blank pusher puller where
  ready := ⟨rfl, rfl, rfl, by decide, by decide, by decide⟩
  small := by decide
  part := by decide
  pos := by decide
  tries := by decide
  tries' := by decide
  addrs := by decide +kernel
  addrs' := by decide +kernel

end CompletionRun

open CompletionRun in
theorem transfer_completes_altered : Inevitable (Pair.Step (reliable Sample.zero 2)) (Completed pusher)
    (parties Sample.zero Sample.blank 3 3 startData startData pusher puller .empty) :=
  (transfer_completes Sample.zero compatible (by decide) (by decide)).1

end RufShare
