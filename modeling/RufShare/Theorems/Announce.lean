import RufShare.Lemmas.Rounds
import RufShare.Theorems.Scan

/-!
# The broadcast goes on

`start_broadcast` pushes one datagram again and again. It counts down the pushes that fail and starts over after one that does not, so it
ends exactly when `bc_trycount` pushes in a row have failed.
-/

namespace RufShare

open Resumption

/-- Whether a push of the CAST header succeeded, at the call that decides it. -/
def castOutcome : Event → Option Bool
  | ⟨_, .malloc _, r⟩ => if r then none else some false
  | ⟨_, .poll _ _ _ _, r⟩ => if r = .ready true then none else some false
  | ⟨_, .send _ _ buf, r⟩ => some (decide (r.elim False (fun n => buf.length ≤ n)))
  | _ => none

/-- How the pushes of a broadcast went. -/
def casts (tr : List Event) : List Bool := tr.filterMap castOutcome

/-- How many pushes have failed since the last that succeeded. -/
def failures (os : List Bool) : Nat := (os.reverse.takeWhile (fun o => !o)).length

/-- Before the end of `os`, fewer than `t` pushes have failed in a row at every point. -/
def KeepsOn (t : Int) (before os : List Bool) : Prop := ∀ n < os.length, (failures (before ++ os.take n) : Int) < t

namespace AnnounceAux

theorem casts_append (tr tr' : List Event) : casts (tr ++ tr') = casts tr ++ casts tr' := List.filterMap_append

theorem failures_concat (os : List Bool) (o : Bool) : failures (os ++ [o]) = if o then 0 else failures os + 1 := by
  unfold failures
  cases o <;> simp

theorem keepsOn_nil (t : Int) (before : List Bool) : KeepsOn t before [] := fun _ hn => absurd hn (Nat.not_lt_zero _)

theorem keepsOn_cons {t : Int} {before os : List Bool} {o : Bool} (h₀ : (failures before : Int) < t) (h : KeepsOn t (before ++ [o]) os) :
    KeepsOn t before (o :: os) := by
  intro n hn
  cases n with
  | zero => simpa using h₀
  | succ n => simpa using h n (Nat.lt_of_succ_lt_succ hn)

section Rules

variable {α β : Type} {s : Proc} {Q : List Event → Proc → β → Prop} {C : List Event → Prop}

theorem ends_total {x : Prog α} {f : α → Prog β} (hx : Total x) (h : (x s).After (fun tr s₁ a =>
    (f a s₁).Ends (fun tr' s' b => Q (tr ++ tr') s' b) (fun tr' => C (tr ++ tr')))) : ((x >>= f) s).Ends Q C :=
  Tree.Ends.bind ((hx s).ends h)

theorem ends_ofConf {f : InitConfig → Prog β} (h : (f s.conf s).Ends Q C) : ((conf >>= f) s).Ends Q C := h

theorem ends_ofSetConf {g : InitConfig → InitConfig} {f : Unit → Prog β} (h : (f () { s with conf := g s.conf }).Ends Q C) :
    ((setConf g >>= f) s).Ends Q C := h

end Rules

/-! ## One push -/

theorem total_pushBroadcastHeader (sock : Sockfd) (args : CastArgs) (timeout : Int) : Total (pushBroadcastHeader sock args timeout) := by
  unfold pushBroadcastHeader
  refine (Total.syscall _).bind fun allocated => .ite (.pure _) ((Total.syscall _).bind fun polled => ?_)
  cases polled with
  | error => exact .pure _
  | timeout => exact .pure _
  | ready hit =>
    refine .ite ?_ (.pure _)
    unfold pushUdpData
    refine (Total.syscall _).bind fun sent => ?_
    cases sent with
    | none => exact .pure _
    | some n => exact .ite (.pure _) (.pure _)

/-- A push changes nothing, and has one outcome. -/
theorem after_pushBroadcastHeader (sock : Sockfd) (args : CastArgs) (timeout : Int) (s : Proc) :
    (pushBroadcastHeader sock args timeout s).After (fun tr s' stat => s' = s ∧ casts tr = [decide (stat = .success)]) := by
  unfold pushBroadcastHeader
  refine after_syscall fun allocated => ?_
  cases allocated with
  | false => exact after_ite (fun _ => after_pure ⟨rfl, rfl⟩) fun h => absurd rfl h
  | true =>
    refine after_ite (fun h => absurd h (by decide)) fun _ => after_syscall fun polled => ?_
    cases polled with
    | error => exact after_pure ⟨rfl, rfl⟩
    | timeout => exact after_pure ⟨rfl, rfl⟩
    | ready hit =>
      cases hit with
      | false => exact after_ite (fun h => absurd h Bool.false_ne_true) fun _ => after_pure ⟨rfl, rfl⟩
      | true =>
        refine after_ite (fun _ => ?_) fun h => absurd rfl h
        unfold pushUdpData
        refine after_syscall fun sent => ?_
        cases sent with
        | none => exact after_pure ⟨rfl, rfl⟩
        | some n =>
          refine after_ite (fun hlt => after_pure ⟨rfl, ?_⟩) fun hlt => after_pure ⟨rfl, ?_⟩
          · exact congrArg (fun o => [o]) (decide_eq_false (Nat.not_le.2 hlt))
          · exact congrArg (fun o => [o]) (decide_eq_true (Nat.not_lt.1 hlt))

/-! ## The loop -/

theorem ends_broadcastLoop (b : CastConfig) (ht : 0 ≤ b.bcTrycount) (header : CastArgs) (rounds : Nat) : ∀ trycount before (s : Proc),
    trycount = b.bcTrycount - failures before → 0 ≤ trycount → (broadcastLoop b header rounds trycount s).Ends
      (fun tr s' _ => s' = s ∧ KeepsOn b.bcTrycount before (casts tr) ∧ (failures (before ++ casts tr) : Int) = b.bcTrycount)
      (fun tr => KeepsOn b.bcTrycount before (casts tr) ∧ (casts tr).length = rounds) := by
  -- induction on the rounds: each is one push, and `trycount` is what the failures before it have left
  induction rounds with
  | zero => exact fun _ before _ _ _ => ⟨keepsOn_nil _ before, rfl⟩
  | succ rounds ih =>
    intro trycount before s hleft hnonneg
    unfold broadcastLoop
    by_cases hgo : trycount ≠ 0
    · rw [if_pos hgo]
      have hbefore : (failures before : Int) < b.bcTrycount := by omega
      refine ends_ofConf (ends_total (total_pushBroadcastHeader _ _ _) ((after_pushBroadcastHeader _ _ _ s).mono ?_))
      rintro tr _ stat ⟨rfl, hcasts⟩
      have hnext : (if stat = .success then b.bcTrycount else trycount - 1) =
          b.bcTrycount - failures (before ++ [decide (stat = .success)]) := by
        rw [failures_concat]
        by_cases hstat : stat = .success
        · simp [hstat]
        · simp only [hstat, if_false, decide_false, Bool.false_eq_true]
          omega
      refine (ih _ (before ++ [decide (stat = .success)]) _ hnext ?_).mono ?_ ?_
      · split <;> omega
      · rintro tr' s' _ ⟨rfl, hkeeps, hfailures⟩
        rw [casts_append, hcasts]
        refine ⟨rfl, keepsOn_cons hbefore hkeeps, ?_⟩
        rw [← hfailures, List.append_assoc]
      · rintro tr' ⟨hkeeps, hlength⟩
        rw [casts_append, hcasts]
        exact ⟨keepsOn_cons hbefore hkeeps, congrArg Nat.succ hlength⟩
    · rw [if_neg hgo]
      refine ⟨rfl, keepsOn_nil _ before, ?_⟩
      rw [casts, List.filterMap_nil, List.append_nil]
      omega

/-! ## The opening and the closing -/

/-- A call that is no push. -/
def Mute (_ : Proc) (c : Call) : Prop := ∀ s r, castOutcome ⟨s, c, r⟩ = none

theorem casts_of_mute {tr : List Event} (h : ∀ e ∈ tr, Mute e.state e.call) : casts tr = [] :=
  List.filterMap_eq_nil_iff.2 fun e he => h e he e.state e.answer

theorem within_initUdpSocket_mute (I : Proc → Prop) (sock : Sockfd) (srcIp dstIp : Bytes) (srcPort dstPort : UInt16) :
    Within I Mute (initUdpSocket sock srcIp srcPort dstIp dstPort true) := by
  unfold initUdpSocket
  cases inetPton srcIp with
  | none => exact .pure _
  | some src =>
    cases inetPton dstIp with
    | none => exact .pure _
    | some dst =>
      refine (Within.syscall fun _ _ _ _ => rfl).bind fun opened => ?_
      cases opened with
      | none => exact .pure _
      | some sock =>
        refine (Within.syscall fun _ _ _ _ => rfl).bind fun ok => .ite (.pure _) ?_
        refine (Within.syscall fun _ _ _ _ => rfl).bind fun ok => .ite (.pure _) ?_
        refine (Within.syscall fun _ _ _ _ => rfl).bind fun ok => .ite (.pure _) ?_
        exact (Within.syscall fun _ _ _ _ => rfl).bind fun ok => .ite (.pure _) (.pure _)

theorem within_closeSocket_mute (I : Proc → Prop) (sock : Sockfd) : Within I Mute (closeSocket sock) := by
  unfold closeSocket
  exact (Within.syscall fun _ _ _ _ => rfl).bind fun ok => .ite (.pure _) (.pure _)

/-- What a whole broadcast comes to, and where it is cut. -/
theorem ends_startBroadcast (b : CastConfig) (ht : 0 ≤ b.bcTrycount) (rounds : Nat) (s : Proc) : (startBroadcast b rounds s).Ends
    (fun tr _ stat => casts tr = [] ∧ stat ≠ .success ∨
      KeepsOn b.bcTrycount [] (casts tr) ∧ (failures (casts tr) : Int) = b.bcTrycount)
    (fun tr => KeepsOn b.bcTrycount [] (casts tr) ∧ (casts tr).length = rounds) := by
  unfold startBroadcast
  refine ends_ofConf (ends_total (total_initUdpSocket _ _ _ _ _ _)
    (((within_initUdpSocket_mute (fun _ => True) _ _ _ _ _).after trivial).mono ?_))
  rintro tr s₁ ⟨stat, sock⟩ ⟨-, hmute⟩
  refine ends_ofSetConf ?_
  have hnone := casts_of_mute hmute
  by_cases hstat : stat ≠ .success
  · rw [if_pos hstat]
    refine .inl ⟨?_, hstat⟩
    rw [List.append_nil]
    exact hnone
  rw [if_neg hstat]
  refine Tree.Ends.bind ((ends_broadcastLoop b ht _ rounds b.bcTrycount [] _ (by simp [failures]) ht).mono ?_ ?_)
  · rintro tr' s₂ _ ⟨-, hkeeps, hfailures⟩
    refine Tree.Complete.ends (ScanAux.total_closeSocket _ _) (((within_closeSocket_mute (fun _ => True) _).after trivial).mono ?_)
    rintro tr'' s₃ stat' ⟨-, hmute'⟩
    rw [casts_append, hnone, List.nil_append, casts_append, casts_of_mute hmute', List.append_nil]
    exact .inr ⟨hkeeps, hfailures⟩
  · rintro tr' hcut
    rw [casts_append, hnone, List.nil_append]
    exact hcut

end AnnounceAux

open AnnounceAux

namespace AnnounceRun

/-- No buffer can be allocated, and every other call succeeds. -/
def env (w : Bytes) (s : Proc) : (c : Call) → c.Answer × Bytes
  | .malloc _ => (false, w)
  | c => Sample.env w s c

/-- A broadcast with two tries. -/
def caster : Tree Status := startBroadcast { bcTrycount := 2, bctCast := 1 } 3 ⟨Sample.receiver, .setup⟩

end AnnounceRun

end RufShare
