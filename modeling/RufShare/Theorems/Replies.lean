import RufShare.Theorems.Bounds
import RufShare.Theorems.Wire

/-!
# What the receiver answers

Against any peer, what a receiver pushes on the control channel is a beginning of one conversation: the answer to the offer, for each
chunk in order the acceptance of its FLOW header and the verdicts on its tries, of which only the last is positive, and the verdict on the
file.
-/

namespace RufShare

open Resumption

/-- The RECV header pushed with an acknowledgement and a sequence number. -/
def recvFrame (ack : UInt8) (seq : UInt32) : Bytes := (packRecvPacket ack 0 seq).bytes

/-- The answers to the chunks before that with the number `seq`. -/
inductive Vouched : UInt32 → List Bytes → Prop where
  | first : Vouched 1 []
  | next {seq : UInt32} {fs : List Bytes} {k : Nat} : Vouched seq fs →
      Vouched (seq + 1) (fs ++ recvFrame 1 seq :: (List.replicate k (recvFrame 0 seq) ++ [recvFrame 1 seq]))

/-- What a receiver may have pushed at some time. -/
inductive Replies : List Bytes → Prop where
  | nothing : Replies []
  -- nothing is said of a receiver that goes on after it has refused the offer
  | refused {fs : List Bytes} : Replies (recvFrame 0 0 :: fs)
  -- the FLOW headers that did not fit are refused under the number of the chunk
  | accepting {seq : UInt32} {fs : List Bytes} {k : Nat} : Vouched seq fs →
      Replies (recvFrame 1 0 :: (fs ++ List.replicate k (recvFrame 0 seq)))
  | collecting {seq : UInt32} {fs : List Bytes} {k : Nat} : Vouched seq fs →
      Replies (recvFrame 1 0 :: (fs ++ recvFrame 1 seq :: List.replicate k (recvFrame 0 seq)))
  | reported {seq : UInt32} {fs : List Bytes} {ack : UInt8} : Vouched seq fs →
      Replies (recvFrame 1 0 :: (fs ++ [recvFrame ack seq]))

namespace RepliesAux

open Receiver

/-- What has been pushed when the receiver is at a stage. -/
inductive Answered : Stage → UInt32 → List Bytes → Prop where
  | offer {seq : UInt32} : Answered .offer seq []
  | offerInfo {seq : UInt32} : Answered .offerInfo seq []
  | making {seq : UInt32} : Answered .making seq []
  | refused {seq : UInt32} {fs : List Bytes} : Answered .refused seq (recvFrame 0 0 :: fs)
  | flow {seq : UInt32} {fs : List Bytes} : Vouched seq fs → Answered .flow seq (recvFrame 1 0 :: fs)
  | answer {seq : UInt32} {fs : List Bytes} {crc : UInt32} : Vouched seq fs → Answered (.answer crc) seq (recvFrame 1 0 :: fs)
  | reject {seq : UInt32} {fs : List Bytes} {k : Nat} : Vouched seq fs →
      Answered .reject seq (recvFrame 1 0 :: (fs ++ List.replicate k (recvFrame 0 seq)))
  | data {seq : UInt32} {fs : List Bytes} {crc : UInt32} {k got : Nat} : Vouched seq fs →
      Answered (.data crc k got) seq (recvFrame 1 0 :: (fs ++ recvFrame 1 seq :: List.replicate k (recvFrame 0 seq)))
  | sync {seq : UInt32} {fs : List Bytes} {crc : UInt32} {k page : Nat} : Vouched seq fs →
      Answered (.sync crc k page) seq (recvFrame 1 0 :: (fs ++ recvFrame 1 seq :: List.replicate k (recvFrame 0 seq)))
  | verdict {seq : UInt32} {fs : List Bytes} {crc : UInt32} {k : Nat} : Vouched seq fs →
      Answered (.verdict crc k) seq (recvFrame 1 0 :: (fs ++ recvFrame 1 seq :: List.replicate k (recvFrame 0 seq)))
  | final {seq : UInt32} {fs : List Bytes} : Vouched seq fs → Answered .final seq (recvFrame 1 0 :: fs)
  | finalInfo {seq : UInt32} {fs : List Bytes} {crc : UInt16} : Vouched seq fs → Answered (.finalInfo crc) seq (recvFrame 1 0 :: fs)
  | report {seq : UInt32} {fs : List Bytes} {crc : UInt16} : Vouched seq fs → Answered (.report crc) seq (recvFrame 1 0 :: fs)
  | done {seq : UInt32} {fs : List Bytes} {ok : Bool} {ack : UInt8} : Vouched seq fs →
      Answered (.done ok) seq (recvFrame 1 0 :: (fs ++ [recvFrame ack seq]))

variable {Γ : Libcrc} {seq : UInt32} {fs : List Bytes}

theorem Vouched.replies (h : Vouched seq fs) : Replies (recvFrame 1 0 :: fs) := by
  have hreplies : Replies (recvFrame 1 0 :: (fs ++ [])) := .accepting (k := 0) h
  rwa [List.append_nil] at hreplies

theorem Answered.replies {stage : Stage} (h : Answered stage seq fs) : Replies fs := by
  cases h with
  | refused => exact .refused
  | flow hacc => exact Vouched.replies hacc
  | answer hacc => exact Vouched.replies hacc
  | reject hacc => exact .accepting hacc
  | data hacc => exact .collecting hacc
  | sync hacc => exact .collecting hacc
  | verdict hacc => exact .collecting hacc
  | final hacc => exact Vouched.replies hacc
  | finalInfo hacc => exact Vouched.replies hacc
  | report hacc => exact Vouched.replies hacc
  | done hacc => exact .reported hacc
  | _ => exact .nothing

/-- When the conversation is over. -/
theorem Answered.conversation {stage : Stage} {ok : Bool} (h : Answered stage seq fs) (hdone : stage = .done ok) :
    ∃ fs' ack, Vouched seq fs' ∧ fs = recvFrame 1 0 :: (fs' ++ [recvFrame ack seq]) := by
  cases h with
  | done hacc => exact ⟨_, _, hacc, rfl⟩
  | _ => exact Stage.noConfusion hdone

theorem Answered.refusal {stage : Stage} (h : Answered stage seq fs) (hrefused : stage = .refused) :
    ∃ fs', fs = recvFrame 0 0 :: fs' := by
  cases h with
  | refused => exact ⟨_, rfl⟩
  | _ => exact Stage.noConfusion hrefused

/-- A refusal stays one. -/
theorem Answered.further {stage : Stage} (h : Answered stage seq fs) (hrefused : stage = .refused) (fs' : List Bytes) :
    Answered stage seq (fs ++ fs') := by
  cases h with
  | refused => exact .refused
  | _ => exact Stage.noConfusion hrefused

/-- Between two chunks. -/
theorem answered_turn {c : InitConfig} (h : Vouched c.seq fs) : Answered (turn c) c.seq (recvFrame 1 0 :: fs) := by
  unfold turn
  split
  · exact .flow h
  · exact .final h

/-- A push adds its header. -/
theorem Answered.sent {v : View} {s : Proc} {buf : Bytes} (h : Answered v.stage v.conf.seq fs) (hsends : sends Γ v s buf) :
    Answered (sent Γ v s buf).stage (sent Γ v s buf).conf.seq (fs ++ [buf]) := by
  obtain ⟨stage, live, length, conf⟩ := v
  cases h with
  | making =>
    unfold Receiver.sent
    dsimp only
    rcases hsends with ⟨rfl, -⟩ | rfl
    · rw [if_pos rfl]
      exact answered_turn (c := { s.conf with seq := 1 }) .first
    · rw [if_neg (by decide)]
      exact .refused
  | answer hacc =>
    obtain rfl : buf = recvFrame 1 conf.seq := hsends
    exact .data (k := 0) hacc
  | @reject _ fs k hacc =>
    obtain rfl : buf = recvFrame 0 conf.seq := hsends
    rw [List.cons_append, List.append_assoc, ← List.replicate_succ']
    exact .reject hacc
  | @verdict _ fs crc k hacc =>
    unfold Receiver.sent
    dsimp only
    by_cases hcrc : crc = chunkCrc Γ ⟨.verdict crc k, live, length, conf⟩
    · obtain rfl : buf = recvFrame 1 conf.seq := by
        have hbuf : buf = (packRecvPacket (if _ then 1 else 0) 0 conf.seq).bytes := hsends
        rwa [if_pos hcrc] at hbuf
      rw [if_pos hcrc]
      rw [List.cons_append, List.append_assoc, List.cons_append]
      exact answered_turn (c := { conf with seq := conf.seq + 1 }) (.next hacc)
    · obtain rfl : buf = recvFrame 0 conf.seq := by
        have hbuf : buf = (packRecvPacket (if _ then 1 else 0) 0 conf.seq).bytes := hsends
        rwa [if_neg hcrc] at hbuf
      rw [if_neg hcrc]
      rw [List.cons_append, List.append_assoc, List.cons_append, ← List.replicate_succ']
      exact .data hacc
  | report hacc =>
    obtain rfl : buf = recvFrame _ conf.seq := hsends
    exact .done hacc
  | _ => exact hsends.elim

/-- A header that comes adds none. -/
theorem Answered.got {v : View} (h : Answered v.stage v.conf.seq fs) (b : Bytes) :
    Answered (got v b).stage (got v b).conf.seq fs := by
  obtain ⟨stage, live, length, conf⟩ := v
  cases h with
  | offer => exact .offerInfo
  | offerInfo => exact .making
  | making => exact .making
  | refused => exact .refused
  | @flow _ fs hacc =>
    unfold Receiver.got
    dsimp only
    split
    · exact .answer hacc
    · have hreject : Answered .reject conf.seq (recvFrame 1 0 :: (fs ++ [])) := .reject (k := 0) hacc
      rwa [List.append_nil] at hreject
  | answer hacc => exact .answer hacc
  | reject hacc => exact .reject hacc
  | data hacc => exact .data hacc
  | sync hacc => exact .sync hacc
  | verdict hacc => exact .verdict hacc
  | final hacc => exact .finalInfo hacc
  | finalInfo hacc => exact .report hacc
  | report hacc => exact .report hacc
  | done hacc => exact .done hacc

/-- Nor does a datagram. -/
theorem Answered.collected {v : View} (h : Answered v.stage v.conf.seq fs) (b : Bytes) :
    Answered (collected v b).stage (collected v b).conf.seq fs := by
  unfold Receiver.collected
  split
  · rename_i crc k got hstage
    rw [hstage] at h
    cases h with
    | data hacc => exact .data hacc
  · exact h

/-- Nor another call. -/
theorem Answered.after {v : View} (h : Answered v.stage v.conf.seq fs) (hne : v.stage ≠ .refused) (c : Call) (r : c.Answer)
    (hv : (after v c r).live = true ∨ (after v c r).stage = .refused) :
    Answered (after v c r).stage (after v c r).conf.seq fs := by
  unfold Receiver.after at hv ⊢
  split at hv <;> try exact h
  · split <;> exact h
  · rename_i file page
    split
    · rename_i crc k got hstage
      rw [hstage] at h
      cases h with
      | data hacc => exact .sync hacc
    · exact h
  · split
    · rename_i crc k page hstage
      rw [hstage] at h
      cases h with
      | sync hacc => exact .verdict hacc
    · exact h
  · split at hv
    · rename_i hsucceeds
      rw [if_pos hsucceeds]
      exact h
    · exact hv.elim (fun h => absurd h Bool.false_ne_true) (fun h => absurd h hne)

/-- What has been pushed is one of the replies, and it is what the stage says while no call has failed. -/
def Kept (v : View) (tr : List Event) : Prop :=
  Replies (frames tr) ∧ (v.live = true ∨ v.stage = .refused → Answered v.stage v.conf.seq (frames tr))

theorem kept_next {v : View} {tr : List Event} {s : Proc} (call : Call) (r : call.Answer) (h : Kept v tr) (hlive : v.live = true)
    (hbound : v.stage ≠ .refused) (hguar : (role Γ).guar v s call) :
    Kept ((role Γ).next v s call r) (tr ++ [⟨s, call, r⟩]) := by
  have hanswered := h.2 (.inl hlive)
  rw [Kept, WireAux.frames_append]
  by_cases hpush : ∃ fd buf, call = .send .stream fd buf
  · obtain ⟨fd, buf, rfl⟩ := hpush
    have hsent := hanswered.sent hguar
    refine ⟨hsent.replies, ?_⟩
    change (if _ then Receiver.sent Γ v s buf else { v with live := false } : View).live = true ∨
      (if _ then Receiver.sent Γ v s buf else { v with live := false } : View).stage = .refused → Answered
        (if _ then Receiver.sent Γ v s buf else { v with live := false } : View).stage
        (if _ then Receiver.sent Γ v s buf else { v with live := false } : View).conf.seq _
    split
    · exact fun _ => hsent
    · exact fun h => h.elim (fun h => absurd h Bool.false_ne_true) fun h => absurd h hbound
  · rw [WireAux.frames_single fun fd buf hcall => hpush ⟨fd, buf, hcall⟩, List.append_nil]
    refine ⟨h.1, ?_⟩
    exact (role Γ).next_cases (p := fun v' => v'.live = true ∨ v'.stage = .refused → Answered v'.stage v'.conf.seq (frames tr)) call r
      (fun _ => hanswered) (fun h => h.elim (fun h => absurd h Bool.false_ne_true) fun h => absurd h hbound)
      (fun fd buf hcall => absurd ⟨fd, buf, hcall⟩ hpush) (fun _ _ _ _ => hanswered) (fun _ _ b _ _ _ => hanswered.got b)
      (fun _ _ _ b _ _ _ => hanswered.collected b) (hanswered.after hbound call r)

/-- A step of the monitor keeps it, also where the receiver has refused. -/
theorem kept_step {v : View} {tr : List Event} {s : Proc} {call : Call} {r : call.Answer} (hkept : Kept v tr)
    (hguar : (role Γ).monitor.guar v s call) (hmaps : MapsWhole ⟨s, call, r⟩) :
    (role Γ).monitor.rely v s call r ∧ Kept ((role Γ).monitor.next v s call r) (tr ++ [⟨s, call, r⟩]) := by
  refine ⟨fun hbound => BoundsAux.relies_of_mapsWhole (hguar hbound).2 hmaps, ?_⟩
  change Kept (if (role Γ).free v then v else (role Γ).next v s call r) _
  by_cases hrefused : v.stage = .refused
  · have hfree : (role Γ).free v = true := decide_eq_true hrefused
    rw [if_pos hfree]
    have hanswered := (hkept.2 (.inr hrefused)).further hrefused (frames [⟨s, call, r⟩])
    rw [← WireAux.frames_append] at hanswered
    exact ⟨hanswered.replies, fun _ => hanswered⟩
  · have hbound : (role Γ).free v = false := decide_eq_false hrefused
    rw [if_neg (by rw [hbound]; decide)]
    exact kept_next call r hkept (hguar hbound).1 hrefused (hguar hbound).2

end RepliesAux

open Receiver RepliesAux

/-- Whatever its peer and the system answer, what a receiver has pushed on the control channel at any time of its phases is a refusal of
the offer, or a beginning of: the acceptance of the offer, for each of the chunks `1`, `2`, ... in order the acceptance of its FLOW header
and then the verdicts on its tries, the last and no other of which is positive, and one verdict on the file. When the phases of a receiver
that has accepted succeed, it is all of that. -/
theorem pull_replies (Γ : Libcrc) (garbage : SendArgs) (rounds : Nat) {s : Proc} {tr : List Event} {t : Tree Status}
    (hp : Path (pullPhases Γ garbage rounds startData s) tr t) (hmaps : ∀ e ∈ tr, MapsWhole e) : Replies (frames tr) ∧
    ∀ s', t = .ret s' .success → (∃ fs, frames tr = recvFrame 0 0 :: fs) ∨
      ∃ fs ack, Vouched s'.conf.seq fs ∧ ¬s'.conf.seq ≤ s'.conf.chcount ∧
        frames tr = recvFrame 1 0 :: (fs ++ [recvFrame ack s'.conf.seq]) := by
  have hsat : (pullPhases Γ garbage rounds startData s).Sat (role Γ).monitor
      { stage := .offer, live := true, length := none, conf := s.conf } (Ends Reported True) :=
    sat_pullPhases opens_startData garbage rounds rfl rfl
  have hstart : RepliesAux.Kept { stage := .offer, live := true, length := none, conf := s.conf } [] := ⟨.nothing, fun _ => .offer⟩
  obtain ⟨v, hkept, hends⟩ := hsat.history (M := (role Γ).monitor) (I := RepliesAux.Kept) (P := MapsWhole)
    (fun _ _ _ _ _ hkept _ hguar hmaps => kept_step hkept hguar hmaps) hstart hp hmaps
  refine ⟨hkept.1, ?_⟩
  rintro s' rfl
  rcases hends with hrefused | ⟨hhold, hok, -⟩
  · exact .inl ((hkept.2 (.inr hrefused)).refusal hrefused)
  · obtain ⟨hlive, ok, hdone⟩ := hok rfl
    obtain ⟨fs, ack, hvouched, hframes⟩ := (hkept.2 (.inl hlive)).conversation hdone
    simp only [hold, hdone] at hhold
    obtain ⟨hshares, hseq⟩ := hhold
    have hcount : s'.conf.chcount = v.conf.chcount := by
      rw [← hshares.core]
      rfl
    rw [hshares.seq_eq, hcount]
    exact .inr ⟨fs, ack, hvouched, hseq, hframes⟩

open BoundsRun Sample in
/-- The receiver of one chunk pushes four headers. -/
theorem pull_replies_one : ∃ tr t, Path (pullPhases zero blank 2 startData ⟨receiver, .setup⟩) tr t ∧ (frames tr).length = 4 ∧
    Replies (frames tr) := by
  have hdone : run.2.map Prod.snd = some .success := by decide +kernel
  obtain ⟨⟨s, stat⟩, hout, -⟩ := Option.map_eq_some_iff.1 hdone
  exact ⟨run.1, _, path_run hout, by decide +kernel, (pull_replies zero blank 2 (path_run hout) mapsWhole_run).1⟩

end RufShare
