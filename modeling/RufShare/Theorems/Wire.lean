import RufShare.Theorems.Lockstep

/-!
# What the sender puts on the wire

Against any peer and with any outcome of its calls, what a sender pushes on the control channel is a beginning of one conversation: the
offer, the FLOW headers of the chunks in order, each of them `tf_trycount` times at most, and the SEND header of the verification.
-/

namespace RufShare

open Resumption

/-- A header pushed on the control channel. -/
def pushedFrame : Event → Option Bytes
  | ⟨_, .send .stream _ buf, _⟩ => some buf
  | _ => none

/-- The headers pushed, each as often as it was tried. -/
def frames (tr : List Event) : List Bytes := tr.filterMap pushedFrame

/-- The FLOW headers of the chunks from that of `c` on, up to the one before that of the second configuration. -/
inductive Announced (Γ : Libcrc) (c : InitConfig) : InitConfig → List Bytes → Prop where
  | first : Announced Γ c c []
  | next {c' : InitConfig} {fs : List Bytes} {k : Nat} : Announced Γ c c' fs → c'.seq ≤ c'.chcount → 1 ≤ k → k ≤ c'.tfTrycount →
      Announced Γ c { c' with seq := c'.seq + 1 } (fs ++ List.replicate k (flowPacket Γ c').bytes)

/-- What a sender may have pushed at some time. -/
inductive Wire (Γ : Libcrc) (c : InitConfig) : List Bytes → Prop where
  | nothing : Wire Γ c []
  | announcing {c' : InitConfig} {fs : List Bytes} {k : Nat} : Announced Γ c c' fs → (c'.seq ≤ c'.chcount ∨ k = 0) → k ≤ c'.tfTrycount →
      Wire Γ c (sendFrame c 0 :: (fs ++ List.replicate k (flowPacket Γ c').bytes))
  | verifying {c' : InitConfig} {fs : List Bytes} : Announced Γ c c' fs → ¬c'.seq ≤ c'.chcount →
      Wire Γ c (sendFrame c 0 :: (fs ++ [sendFrame c' (calcFileCrc16 Γ c'.filec)]))

namespace WireAux

open Sender

variable {Γ : Libcrc} {c c' : InitConfig} {fs : List Bytes}

theorem frames_append (tr tr' : List Event) : frames (tr ++ tr') = frames tr ++ frames tr' := List.filterMap_append

/-- A call that is no push on the control channel. -/
theorem frames_single {e : Event} (h : ∀ fd buf, e.call ≠ .send .stream fd buf) : frames [e] = [] := by
  obtain ⟨s, call, r⟩ := e
  refine List.filterMap_eq_nil_iff.2 fun e he => ?_
  obtain rfl := List.mem_singleton.1 he
  cases call with
  | send ty fd buf =>
    cases ty with
    | stream => exact absurd rfl (h fd buf)
    | dgram => rfl
  | _ => rfl

/-- What has been pushed when the sender is at a stage. -/
inductive Stands (Γ : Libcrc) (c : InitConfig) : Stage → InitConfig → List Bytes → Prop where
  | offer : Stands Γ c .offer c []
  | offered : Stands Γ c .offered c [sendFrame c 0]
  | declined {c' : InitConfig} : Stands Γ c .declined c' [sendFrame c 0]
  | flow {c' : InitConfig} {fs : List Bytes} {tries : Nat} : Announced Γ c c' fs → c'.seq ≤ c'.chcount → tries ≤ c'.tfTrycount →
      Stands Γ c (.flow tries) c' (sendFrame c 0 :: (fs ++ List.replicate tries (flowPacket Γ c').bytes))
  | flowed {c' : InitConfig} {fs : List Bytes} {tries : Nat} : Announced Γ c c' fs → c'.seq ≤ c'.chcount → tries + 1 ≤ c'.tfTrycount →
      Stands Γ c (.flowed tries) c' (sendFrame c 0 :: (fs ++ List.replicate (tries + 1) (flowPacket Γ c').bytes))
  | data {c' : InitConfig} {fs : List Bytes} {k tries out : Nat} : Announced Γ c c' fs → c'.seq ≤ c'.chcount → 1 ≤ k →
      k ≤ c'.tfTrycount → Stands Γ c (.data tries out) c' (sendFrame c 0 :: (fs ++ List.replicate k (flowPacket Γ c').bytes))
  | final {c' : InitConfig} {fs : List Bytes} : Announced Γ c c' fs → ¬c'.seq ≤ c'.chcount → Stands Γ c .final c' (sendFrame c 0 :: fs)
  | finalSent {c' : InitConfig} {fs : List Bytes} : Announced Γ c c' fs → ¬c'.seq ≤ c'.chcount →
      Stands Γ c .finalSent c' (sendFrame c 0 :: (fs ++ [sendFrame c' (calcFileCrc16 Γ c'.filec)]))
  | done {c' : InitConfig} {fs : List Bytes} {ack : Bool} : Announced Γ c c' fs → ¬c'.seq ≤ c'.chcount →
      Stands Γ c (.done ack) c' (sendFrame c 0 :: (fs ++ [sendFrame c' (calcFileCrc16 Γ c'.filec)]))

theorem Stands.wire {stage : Stage} (h : Stands Γ c stage c' fs) : Wire Γ c fs := by
  cases h with
  | offer => exact .nothing
  | offered => exact .announcing (k := 0) .first (.inr rfl) (Nat.zero_le _)
  | declined => exact .announcing (k := 0) .first (.inr rfl) (Nat.zero_le _)
  | flow hbefore hseq htries => exact .announcing hbefore (.inl hseq) htries
  | flowed hbefore hseq htries => exact .announcing hbefore (.inl hseq) htries
  | data hbefore hseq _ htries => exact .announcing hbefore (.inl hseq) htries
  | @final _ fs hbefore _ =>
    have hwire : Wire Γ c (sendFrame c 0 :: (fs ++ [])) := .announcing (k := 0) hbefore (.inr rfl) (Nat.zero_le _)
    rwa [List.append_nil] at hwire
  | finalSent hbefore hseq => exact .verifying hbefore hseq
  | done hbefore hseq => exact .verifying hbefore hseq

/-- When the conversation is over. -/
theorem Stands.conversation {stage : Stage} {ack : Bool} (h : Stands Γ c stage c' fs) (hdone : stage = .done ack) :
    ∃ c' fs', Announced Γ c c' fs' ∧ ¬c'.seq ≤ c'.chcount ∧
      fs = sendFrame c 0 :: (fs' ++ [sendFrame c' (calcFileCrc16 Γ c'.filec)]) := by
  cases h with
  | done hbefore hseq => exact ⟨_, _, hbefore, hseq, rfl⟩
  | _ => exact Stage.noConfusion hdone

/-- Between two chunks. -/
theorem stands_turn (h : Announced Γ c c' fs) : Stands Γ c (turn c') c' (sendFrame c 0 :: fs) := by
  unfold turn
  by_cases hseq : c'.seq ≤ c'.chcount
  · rw [if_pos hseq]
    have hflow : Stands Γ c (.flow 0) c' (sendFrame c 0 :: (fs ++ [])) := .flow h hseq (Nat.zero_le _)
    rwa [List.append_nil] at hflow
  · rw [if_neg hseq]
    exact .final h hseq

/-- A push adds its header. -/
theorem Stands.sent {v : View} {s : Proc} {buf : Bytes} (h : Stands Γ c v.stage v.conf fs) (hsends : sends Γ v s buf) :
    Stands Γ c (sent v).stage (sent v).conf (fs ++ [buf]) := by
  obtain ⟨stage, live, conf⟩ := v
  cases h with
  | offer =>
    obtain rfl : buf = sendFrame conf 0 := hsends
    exact .offered
  | flow hbefore hseq htries =>
    obtain ⟨rfl, hlt, -⟩ := hsends
    have hflowed := Stands.flowed hbefore hseq hlt
    rwa [List.replicate_succ', ← List.append_assoc, ← List.cons_append] at hflowed
  | final hbefore hseq =>
    obtain ⟨rfl, -⟩ := hsends
    exact .finalSent hbefore hseq
  | _ => exact hsends.elim

/-- An answer adds none. -/
theorem Stands.answered {v : View} (h : Stands Γ c v.stage v.conf fs) (ack : UInt8) :
    Stands Γ c (answered v ack).stage (answered v ack).conf fs := by
  obtain ⟨stage, live, conf⟩ := v
  cases h with
  | offered =>
    change Stands Γ conf (if ack = 0 then Stage.declined else turn conf) conf _
    by_cases hack : ack = 0
    · rw [if_pos hack]
      exact .declined
    · rw [if_neg hack]
      exact stands_turn .first
  | @flowed _ _ tries hbefore hseq htries =>
    change Stands Γ c (if ack = 1 then Stage.data 0 0 else .flow (tries + 1)) conf _
    by_cases hack : ack = 1
    · rw [if_pos hack]
      exact .data hbefore hseq (Nat.le_add_left 1 _) htries
    · rw [if_neg hack]
      exact .flow hbefore hseq htries
  | data hbefore hseq hone htries =>
    unfold Sender.answered
    dsimp only
    by_cases hack : ack = 1
    · rw [if_pos hack]
      exact stands_turn (.next hbefore hseq hone htries)
    · rw [if_neg hack]
      exact .data hbefore hseq hone htries
  | finalSent hbefore hseq => exact .done hbefore hseq
  | offer => exact .offer
  | declined => exact .declined
  | flow hbefore hseq htries => exact .flow hbefore hseq htries
  | final hbefore hseq => exact .final hbefore hseq
  | done hbefore hseq => exact .done hbefore hseq

/-- Nor does a datagram. -/
theorem Stands.emitted {v : View} (h : Stands Γ c v.stage v.conf fs) (buf : Bytes) :
    Stands Γ c (emitted v buf).stage (emitted v buf).conf fs := by
  obtain ⟨stage, live, conf⟩ := v
  cases h with
  | data hbefore hseq hone htries => exact .data hbefore hseq hone htries
  | offer => exact .offer
  | offered => exact .offered
  | declined => exact .declined
  | flow hbefore hseq htries => exact .flow hbefore hseq htries
  | flowed hbefore hseq htries => exact .flowed hbefore hseq htries
  | final hbefore hseq => exact .final hbefore hseq
  | finalSent hbefore hseq => exact .finalSent hbefore hseq
  | done hbefore hseq => exact .done hbefore hseq

/-- What has been pushed is on the wire, and while no call has failed it is what the stage says. -/
def Kept (Γ : Libcrc) (c : InitConfig) (v : View) (tr : List Event) : Prop :=
  Wire Γ c (frames tr) ∧ (v.live = true → Stands Γ c v.stage v.conf (frames tr))

theorem kept_next {v : View} {tr : List Event} {s : Proc} (call : Call) (r : call.Answer) (h : Kept Γ c v tr)
    (hlive : v.live = true) (hguar : (role Γ).guar v s call) :
    Kept Γ c ((role Γ).next v s call r) (tr ++ [⟨s, call, r⟩]) := by
  have hstands := h.2 hlive
  rw [Kept, frames_append]
  by_cases hpush : ∃ fd buf, call = .send .stream fd buf
  · obtain ⟨fd, buf, rfl⟩ := hpush
    have hsent := hstands.sent hguar
    refine ⟨hsent.wire, ?_⟩
    change (if _ then sent v else { v with live := false } : View).live = true → Stands Γ c
      (if _ then sent v else { v with live := false } : View).stage (if _ then sent v else { v with live := false } : View).conf _
    split
    · exact fun _ => hsent
    · exact fun h => absurd h Bool.false_ne_true
  · rw [frames_single fun fd buf hcall => hpush ⟨fd, buf, hcall⟩, List.append_nil]
    refine ⟨h.1, ?_⟩
    refine (role Γ).next_cases (p := fun v' => v'.live = true → Stands Γ c v'.stage v'.conf (frames tr)) call r (fun _ => hstands)
      (fun h => absurd h Bool.false_ne_true) (fun fd buf hcall => absurd ⟨fd, buf, hcall⟩ hpush) (fun _ buf _ _ => hstands.emitted buf)
      (fun _ _ b _ _ _ => hstands.answered _) (fun _ _ _ _ _ _ _ => hstands) ?_
    change (if call.Succeeds r then v else { v with live := false } : View).live = true → Stands Γ c
      (if call.Succeeds r then v else { v with live := false } : View).stage
      (if call.Succeeds r then v else { v with live := false } : View).conf (frames tr)
    split
    · exact fun _ => hstands
    · exact fun h => absurd h Bool.false_ne_true

end WireAux

open WireAux LockstepAux

/-- Whatever its peer and the system answer, what a sender has pushed on the control channel at any time of its phases is a beginning
of the offer, the FLOW headers of the chunks `1`, `2`, ... in order, each pushed between one and `tf_trycount` times before the next, and
after the last of them the SEND header with the checksum of the file. When the phases succeed it is all of that. -/
theorem push_wire (Γ : Libcrc) (rounds : Nat) {s : Proc} (h : ReadyToPush s) {tr : List Event} {t : Tree Status}
    (hp : Path (pushPhases Γ rounds startData s) tr t) : Wire Γ (offered s) (frames tr) ∧
    ∀ s', t = .ret s' .success → ∃ c' fs, Announced Γ (offered s) c' fs ∧ ¬c'.seq ≤ c'.chcount ∧
      frames tr = sendFrame (offered s) 0 :: (fs ++ [sendFrame c' (calcFileCrc16 Γ c'.filec)]) := by
  have hsat := Sender.sat_pushPhases (Γ := Γ) (v := { stage := .offer, live := true, conf := offered s }) rounds rfl rfl (shares_offered h)
  have hstep : ∀ v tr s' call r, WireAux.Kept Γ (offered s) v tr → (Sender.role Γ).monitor.hold v s' →
      (Sender.role Γ).monitor.guar v s' call → True → (Sender.role Γ).monitor.rely v s' call r ∧
        WireAux.Kept Γ (offered s) ((Sender.role Γ).monitor.next v s' call r) (tr ++ [⟨s', call, r⟩]) := by
    intro v tr s' call r hkept _ hguar _
    obtain ⟨hlive, hguar⟩ := hguar rfl
    exact ⟨fun _ => trivial, kept_next call r hkept hlive hguar⟩
  have hstart : WireAux.Kept Γ (offered s) { stage := .offer, live := true, conf := offered s } [] := ⟨.nothing, fun _ => .offer⟩
  obtain ⟨v, hkept, hends⟩ := hsat.history (M := (Sender.role Γ).monitor) (I := WireAux.Kept Γ (offered s)) (P := fun _ => True)
    hstep hstart hp (fun _ _ => trivial)
  refine ⟨hkept.1, ?_⟩
  rintro s' rfl
  obtain ⟨hlive, hdone⟩ := hends.2.1 rfl
  exact (hkept.2 hlive).conversation hdone

namespace WireRun

/-- A verdict of the receiver. -/
def verdict : Bytes := (packRecvPacket 1 0 1).bytes

/-- Every call succeeds, and the verdicts of the receiver are on their way. -/
def played : List Event × Option (Proc × Status) :=
  play Sample.env (verdict ++ verdict ++ verdict ++ verdict) (pushPhases Sample.zero 2 startData LockstepRun.pusher)

end WireRun

open WireRun in
/-- A sender of one chunk pushes three headers. -/
theorem push_wire_one : (frames played.1).length = 3 ∧ Wire Sample.zero (offered LockstepRun.pusher) (frames played.1) := by
  obtain ⟨t, hpath⟩ := path_play Sample.env (verdict ++ verdict ++ verdict ++ verdict)
    (pushPhases Sample.zero 2 startData LockstepRun.pusher)
  exact ⟨by decide +kernel, (push_wire Sample.zero 2 LockstepRun.ready_pusher hpath).1⟩

end RufShare
