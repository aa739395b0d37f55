import RufShare.Resumption.Run
import RufShare.Puller

/-!
# What a program stays within

`Within I P x`: every run of `x` from a state in `I` ends in one, and makes only calls in `P`. The functions of the transfer stay
within any `I` that does not look at the configuration and allows the phases they enter, and any `P` that allows the calls they
make; `Call.Plain` leaves out the three calls that open something: a file to write, a data socket, a connection.
-/

namespace RufShare

open Resumption

/-- A call of a run. -/
abbrev Event : Type := Resumption.Event Proc Call.Answer

/-- The answer to a call is the one the source takes for success. -/
def Call.Succeeds : (c : Call) → c.Answer → Prop
  | .malloc _, r | .calloc _ _, r => r = true
  | .poll _ _ _ _, r => r = .ready true
  | .send _ _ buf, r => r.elim False (fun n => buf.length ≤ n)
  | .recv _ _ size _, r => r.elim False (fun b => size ≤ b.1.length)
  | .socket _, r => r.isSome
  | .setsockopt _ _, r | .bind _ _ _, r | .connect _ _ _, r | .listen _ _, r => r = true
  | .accept _, r => r.elim False (fun conn => conn.inet = true)
  | .close _, r => r = true
  | .fopen _ _, r => r.isSome
  | .fclose _, r => r = true
  | .fstatvfs _, r => r.isSome
  | .ftruncate _ _, r => r = true
  | .stat _, r | .fstat _, r => r.isSome
  | .mmap _ _, r => r.isSome
  | .munmap _, r => r = true
  | .sysconf, r => r.isSome
  | .msync _ _, r => r = true
  | .pthreadCreate, r | .pthreadJoin, r => r = true

instance decidableElim {α : Type} {p : α → Prop} [DecidablePred p] : (r : Option α) → Decidable (r.elim False p)
  | none => inferInstanceAs (Decidable False)
  | some a => inferInstanceAs (Decidable (p a))

instance decidableSucceeds : (c : Call) → (r : c.Answer) → Decidable (c.Succeeds r)
  | .malloc _, r | .calloc _ _, r => inferInstanceAs (Decidable (r = true))
  | .poll _ _ _ _, r => inferInstanceAs (Decidable (r = .ready true))
  | .send _ _ buf, r => inferInstanceAs (Decidable (r.elim False (fun n => buf.length ≤ n)))
  | .recv _ _ size _, r => inferInstanceAs (Decidable (r.elim False (fun b => size ≤ b.1.length)))
  | .socket _, r => inferInstanceAs (Decidable (r.isSome = true))
  | .setsockopt _ _, r | .bind _ _ _, r | .connect _ _ _, r | .listen _ _, r => inferInstanceAs (Decidable (r = true))
  | .accept _, r => inferInstanceAs (Decidable (r.elim False (fun conn => conn.inet = true)))
  | .close _, r => inferInstanceAs (Decidable (r = true))
  | .fopen _ _, r => inferInstanceAs (Decidable (r.isSome = true))
  | .fclose _, r => inferInstanceAs (Decidable (r = true))
  | .fstatvfs _, r => inferInstanceAs (Decidable (r.isSome = true))
  | .ftruncate _ _, r => inferInstanceAs (Decidable (r = true))
  | .stat _, r | .fstat _, r => inferInstanceAs (Decidable (r.isSome = true))
  | .mmap _ _, r => inferInstanceAs (Decidable (r.isSome = true))
  | .munmap _, r => inferInstanceAs (Decidable (r = true))
  | .sysconf, r => inferInstanceAs (Decidable (r.isSome = true))
  | .msync _ _, r => inferInstanceAs (Decidable (r = true))
  | .pthreadCreate, r | .pthreadJoin, r => inferInstanceAs (Decidable (r = true))

/-- The call of a run succeeded. -/
def Succeeded (e : Event) : Prop := e.call.Succeeds e.answer

instance : DecidablePred Succeeded := fun e => decidableSucceeds e.call e.answer

/-- A call that opens neither a file to write nor a data socket nor a connection. -/
def Call.Plain : Call → Prop
  | .fopen _ .wplus => False
  | .socket .dgram => False
  | .connect _ _ _ => False
  | _ => True

/-- A call that opens or closes no socket and opens no file to write. -/
def Call.Steady : Call → Prop
  | .fopen _ .wplus => False
  | .socket _ | .bind _ _ _ | .connect _ _ _ | .listen _ _ | .accept _ | .close _ => False
  | _ => True

/-- A call that opens and closes nothing. -/
def Call.Inert : Call → Prop
  | .fopen _ _ | .fclose _ | .mmap _ _ | .munmap _ => False
  | .socket _ | .bind _ _ _ | .connect _ _ _ | .listen _ _ | .accept _ | .close _ => False
  | _ => True

theorem Call.Inert.steady {c : Call} (h : c.Inert) : c.Steady := by
  cases c with
  | fopen path mode => exact h.elim
  | _ => first | trivial | exact h

theorem Call.Steady.plain {c : Call} (h : c.Steady) : c.Plain := by
  cases c with
  | fopen path mode =>
    cases mode with
    | wplus => exact h
    | rplus => trivial
  | socket ty => exact h.elim
  | connect fd ip port => exact h.elim
  | _ => trivial

section After

variable {α β : Type} {s : Proc} {Q : List Event → Proc → β → Prop}

theorem after_bind_of {x : Prog α} {f : α → Prog β} {P : List Event → Proc → α → Prop} (hx : (x s).After P)
    (hf : ∀ tr s₁ a, P tr s₁ a → (f a s₁).After (fun tr' s' b => Q (tr ++ tr') s' b)) : ((x >>= f) s).After Q :=
  Tree.after_bind.2 (hx.mono hf)

theorem after_syscall {c : Call} {f : c.Answer → Prog β}
    (h : ∀ r, (f r s).After (fun tr s' b => Q (⟨s, c, r⟩ :: tr) s' b)) : ((syscall c >>= f) s).After Q := h

/-- A call at the end of a program. -/
theorem after_last {c : Call} {Q : List Event → Proc → c.Answer → Prop} (h : ∀ r, Q [⟨s, c, r⟩] s r) : (syscall c s).After Q := h

theorem after_conf {f : InitConfig → Prog β} (h : (f s.conf s).After Q) : ((conf >>= f) s).After Q := h

theorem after_setConf {g : InitConfig → InitConfig} {f : Unit → Prog β}
    (h : (f () { s with conf := g s.conf }).After Q) : ((setConf g >>= f) s).After Q := h

theorem after_enter {p : Phase} {f : Unit → Prog β} (h : (f () { s with phase := p }).After Q) :
    ((enter p >>= f) s).After Q := h

theorem after_pure {b : β} (h : Q [] s b) : ((pure b : Prog β) s).After Q := h

theorem after_ite {c : Prop} [Decidable c] {x y : Prog β} (hx : c → (x s).After Q) (hy : ¬c → (y s).After Q) :
    ((if c then x else y) s).After Q := by
  by_cases hc : c
  · rw [if_pos hc]
    exact hx hc
  · rw [if_neg hc]
    exact hy hc

end After

/-- The early return of `CHECK_STAT`: the rest runs only after a success. -/
theorem after_check {x y : Prog Status} {s : Proc} {P Q : List Event → Proc → Status → Prop} (hx : (x s).After P)
    (hfail : ∀ tr s' stat, P tr s' stat → stat ≠ .success → Q tr s' stat)
    (hok : ∀ tr s₁, P tr s₁ .success → (y s₁).After (fun tr' s' stat => Q (tr ++ tr') s' stat)) :
    ((x >>= fun stat => if stat ≠ .success then pure stat else y) s).After Q := by
  refine Tree.after_bind.2 (hx.mono ?_)
  intro tr s₁ stat h
  by_cases hs : stat = .success
  · subst hs
    exact hok tr s₁ h
  · simp only [ne_eq, hs, not_false_eq_true, if_true, Prog.pure_apply, Tree.After, List.append_nil]
    exact hfail tr s₁ stat h hs

section May

variable {α β : Type} {s : Proc} {Q : List Event → Proc → β → Prop}

theorem may_bind {x : Prog α} {f : α → Prog β}
    (h : (x s).May (fun tr s₁ a => (f a s₁).May (fun tr' s' b => Q (tr ++ tr') s' b))) : ((x >>= f) s).May Q :=
  Tree.may_bind.2 h

theorem may_syscall {c : Call} {f : c.Answer → Prog β}
    (h : ∃ r, (f r s).May (fun tr s' b => Q (⟨s, c, r⟩ :: tr) s' b)) : ((syscall c >>= f) s).May Q := h

theorem may_conf {f : InitConfig → Prog β} (h : (f s.conf s).May Q) : ((conf >>= f) s).May Q := h

theorem may_setConf {g : InitConfig → InitConfig} {f : Unit → Prog β} (h : (f () { s with conf := g s.conf }).May Q) :
    ((setConf g >>= f) s).May Q := h

theorem may_enter {p : Phase} {f : Unit → Prog β} (h : (f () { s with phase := p }).May Q) : ((enter p >>= f) s).May Q := h

theorem may_ite_pos {c : Prop} [Decidable c] {x y : Prog β} (hc : c) (h : (x s).May Q) : ((if c then x else y) s).May Q := by
  rw [if_pos hc]
  exact h

theorem may_ite_neg {c : Prop} [Decidable c] {x y : Prog β} (hc : ¬c) (h : (y s).May Q) :
    ((if c then x else y) s).May Q := by
  rw [if_neg hc]
  exact h

end May

section Under

variable {α β : Type} {s : Proc} {P : Event → Prop} {Q : List Event → Proc → β → Prop}

theorem under_bind {x : Prog α} {f : α → Prog β} {R : List Event → Proc → α → Prop} (hx : (x s).Under P R)
    (hf : ∀ tr s₁ a, R tr s₁ a → (f a s₁).Under P (fun tr' s' b => Q (tr ++ tr') s' b)) : ((x >>= f) s).Under P Q :=
  Tree.under_bind.2 (hx.mono hf)

theorem under_syscall {c : Call} {f : c.Answer → Prog β}
    (h : ∀ r, P ⟨s, c, r⟩ → (f r s).Under P (fun tr s' b => Q (⟨s, c, r⟩ :: tr) s' b)) : ((syscall c >>= f) s).Under P Q := h

theorem under_conf {f : InitConfig → Prog β} (h : (f s.conf s).Under P Q) : ((conf >>= f) s).Under P Q := h

theorem under_setConf {g : InitConfig → InitConfig} {f : Unit → Prog β} (h : (f () { s with conf := g s.conf }).Under P Q) :
    ((setConf g >>= f) s).Under P Q := h

theorem under_enter {p : Phase} {f : Unit → Prog β} (h : (f () { s with phase := p }).Under P Q) :
    ((enter p >>= f) s).Under P Q := h

theorem under_pure {b : β} (h : Q [] s b) : ((pure b : Prog β) s).Under P Q := h

theorem under_ite {c : Prop} [Decidable c] {x y : Prog β} (hx : c → (x s).Under P Q) (hy : ¬c → (y s).Under P Q) :
    ((if c then x else y) s).Under P Q := by
  by_cases hc : c
  · rw [if_pos hc]
    exact hx hc
  · rw [if_neg hc]
    exact hy hc

/-- The rest of a function after a check that does not fail. -/
theorem under_ok {stat : Status} {x y : Prog β} (hstat : stat = .success) (hy : (y s).Under P Q) :
    ((if stat ≠ .success then x else y) s).Under P Q := under_ite (fun hne => absurd hstat hne) fun _ => hy

end Under

theorem may_pullTcpData {sock : Sockfd} {peek : Bool} {s : Proc} {size : Nat} {b : Bytes} (hb : b.length = size)
    {Q : List Event → Proc → Status × Bytes → Prop}
    (h : Q [⟨s, .recv .stream sock size peek, some ⟨b, by omega⟩⟩] s (.success, b)) :
    (pullTcpData sock size peek s).May Q := by
  unfold pullTcpData
  refine may_syscall ⟨some ⟨b, by omega⟩, may_ite_neg ?_ h⟩
  simp [hb]

/-- Pushing a header can succeed. -/
theorem may_pushHeader {sock : Sockfd} {buf : Bytes} {timeout : Int} {s : Proc} {Q : List Event → Proc → Status → Prop}
    (h : Q [⟨s, .malloc buf.length, true⟩, ⟨s, .poll .stream sock .pollout timeout, .ready true⟩,
      ⟨s, .send .stream sock buf, some buf.length⟩] s .success) :
    (pushHeader sock buf timeout s).May Q := by
  unfold pushHeader
  refine may_syscall ⟨true, may_ite_neg nofun (may_syscall ⟨.ready true, ?_⟩)⟩
  unfold pushTcpData
  exact may_syscall ⟨some buf.length, may_ite_neg (Nat.lt_irrefl _) h⟩

/-- A call that pushes on a control socket or prepares it. -/
def Call.Pushes : Call → Prop
  | .malloc _ => True
  | .poll .stream _ .pollout _ => True
  | .send .stream _ _ => True
  | _ => False

/-- Pushing a header succeeds exactly when its calls do, and has then sent it. -/
theorem after_pushHeader (sock : Sockfd) (buf : Bytes) (timeout : Int) (s : Proc) :
    (pushHeader sock buf timeout s).After (fun tr s' stat => s' = s ∧ (∀ e ∈ tr, e.call.Pushes) ∧
      (stat = .success ↔ ∀ e ∈ tr, Succeeded e) ∧
      (stat = .success → ∃ n, tr = [⟨s, .malloc buf.length, true⟩, ⟨s, .poll .stream sock .pollout timeout, .ready true⟩,
        ⟨s, .send .stream sock buf, some n⟩])) := by
  unfold pushHeader
  refine after_syscall fun allocated => ?_
  cases allocated with
  | false => exact ⟨rfl, by simp [Call.Pushes], by simp [Succeeded, Call.Succeeds], nofun⟩
  | true =>
    refine after_ite nofun (fun _ => after_syscall fun polled => ?_)
    cases polled with
    | error => exact ⟨rfl, by simp [Call.Pushes], by simp [Succeeded, Call.Succeeds], nofun⟩
    | timeout => exact ⟨rfl, by simp [Call.Pushes], by simp [Succeeded, Call.Succeeds], nofun⟩
    | ready hit =>
      cases hit with
      | false => exact ⟨rfl, by simp [Call.Pushes], by simp [Succeeded, Call.Succeeds], nofun⟩
      | true =>
        unfold pushTcpData
        refine after_ite (fun _ => after_syscall fun sent => ?_) (fun h => absurd rfl h)
        cases sent with
        | none => exact ⟨rfl, by simp [Call.Pushes], by simp [Succeeded, Call.Succeeds], nofun⟩
        | some n =>
          refine after_ite (fun hn => ?_) (fun hn => ?_)
          · exact ⟨rfl, by simp [Call.Pushes], by simp [Succeeded, Call.Succeeds, hn], nofun⟩
          · exact ⟨rfl, by simp [Call.Pushes], by simpa [Succeeded, Call.Succeeds] using hn, fun _ => ⟨n, rfl⟩⟩

/-- A call that only looks at a socket. -/
def Call.Looks : Call → Prop
  | .poll _ _ _ _ => True
  | .recv _ _ _ true => True
  | _ => False

/-- The first part of every `pull_*_header` only looks at the socket. -/
theorem after_pullType (sock : Sockfd) (type : PacketType) (timeout : Int) (s : Proc) :
    (pullType sock type timeout s).After (fun tr s' _ => s' = s ∧ ∀ e ∈ tr, e.call.Looks) := by
  unfold pullType
  refine after_syscall fun polled => ?_
  cases polled with
  | error => exact ⟨rfl, by simp [Call.Looks]⟩
  | timeout => exact ⟨rfl, by simp [Call.Looks]⟩
  | ready hit =>
    refine after_ite (fun _ => ⟨rfl, by simp [Call.Looks]⟩) (fun _ => ?_)
    unfold pullTcpData
    refine after_bind_of (P := fun tr s' _ => s' = s ∧ ∀ e ∈ tr, e.call.Looks) ?_ ?_
    · refine after_syscall fun received => ?_
      cases received with
      | none => exact ⟨rfl, by simp [Call.Looks]⟩
      | some b => exact after_ite (fun _ => ⟨rfl, by simp [Call.Looks]⟩) (fun _ => ⟨rfl, by simp [Call.Looks]⟩)
    · intro tr s₁ got h
      obtain ⟨rfl, htr⟩ := h
      have hall : ∀ e ∈ (⟨s₁, .poll .stream sock .pollin timeout, .ready hit⟩ :: (tr ++ []) : List Event),
          e.call.Looks := by simpa [Call.Looks] using htr
      exact after_ite (fun _ => ⟨rfl, hall⟩) (fun _ => after_ite (fun _ => ⟨rfl, hall⟩) (fun _ => ⟨rfl, hall⟩))

/-- From a state in `I` the program returns only in `I`, and makes only calls in `P` whether it returns or not. -/
def Within (I : Proc → Prop) (P : Proc → Call → Prop) {α : Type} (x : Prog α) : Prop := ∀ s, I s → (x s).Always P I

section Within

variable {I : Proc → Prop} {P : Proc → Call → Prop} {α β : Type}

theorem Within.after {x : Prog α} (hx : Within I P x) {s : Proc} (hs : I s) :
    (x s).After (fun tr s' _ => I s' ∧ ∀ e ∈ tr, P e.state e.call) := (hx s hs).after

theorem Within.pure (a : α) : Within I P (pure a : Prog α) := fun _ hs => hs

theorem Within.bind {x : Prog α} {f : α → Prog β} (hx : Within I P x) (hf : ∀ a, Within I P (f a)) : Within I P (x >>= f) :=
  fun s hs => (hx s hs).bind (fun s₁ a h₁ => hf a s₁ h₁)

theorem Within.syscall {c : Call} (h : ∀ s, I s → P s c) : Within I P (syscall c) := fun s hs => ⟨h s hs, fun _ => hs⟩

theorem Within.conf : Within I P conf := fun _ hs => hs

theorem Within.conf_bind {f : InitConfig → Prog α} (h : ∀ s, I s → (f s.conf s).Always P I) : Within I P (RufShare.conf >>= f) := h

theorem always_syscall {c : Call} {f : c.Answer → Prog α} {s : Proc} (hc : P s c) (h : ∀ r, (f r s).Always P I) :
    ((RufShare.syscall c >>= f) s).Always P I := ⟨hc, h⟩

theorem always_ite {c : Prop} [Decidable c] {x y : Prog α} {s : Proc} (hx : (x s).Always P I) (hy : (y s).Always P I) :
    ((if c then x else y) s).Always P I := by
  split
  · exact hx
  · exact hy

theorem always_pure {a : α} {s : Proc} (h : I s) : ((Pure.pure a : Prog α) s).Always P I := h

theorem always_setMfile {stream : MFile} {f : Unit → Prog α} {s : Proc} (hf : Within I P (f ()))
    (h : I { s with conf := { s.conf with filec := { s.conf.filec with mfile := stream } } }) :
    ((setMfile stream >>= f) s).Always P I := hf _ h

theorem Within.setConf {f : InitConfig → InitConfig} (h : ∀ s, I s → I { s with conf := f s.conf }) :
    Within I P (setConf f) := fun s hs => h s hs

theorem Within.enter {p : Phase} (h : ∀ s, I s → I { s with phase := p }) : Within I P (enter p) := fun s hs => h s hs

theorem Within.cutoff : Within I P (Prog.cutoff : Prog α) := fun _ _ => trivial

theorem Within.ite {c : Prop} [Decidable c] {x y : Prog α} (hx : Within I P x) (hy : Within I P y) :
    Within I P (if c then x else y) := by
  split
  · exact hx
  · exact hy

end Within

/-! ## The control channel -/

section Functions

variable {I : Proc → Prop} {P : Proc → Call → Prop} (hP : ∀ s c, I s → c.Inert → P s c)
include hP

theorem Within.inert {c : Call} (h : c.Inert) : Within I P (RufShare.syscall c) :=
  .syscall (fun s hs => hP s c hs h)

theorem within_pushTcpData (sock : Sockfd) (buf : Bytes) : Within I P (pushTcpData sock buf) := by
  unfold pushTcpData
  refine (Within.inert hP (by trivial)).bind fun sent => ?_
  cases sent with
  | none => exact .pure _
  | some n => exact .ite (.pure _) (.pure _)

theorem within_pullTcpData (sock : Sockfd) (size : Nat) (peek : Bool) : Within I P (pullTcpData sock size peek) := by
  unfold pullTcpData
  refine (Within.inert hP (by trivial)).bind fun received => ?_
  cases received with
  | none => exact .pure _
  | some b => exact .ite (.pure _) (.pure _)

theorem within_pushHeader (sock : Sockfd) (buf : Bytes) (timeout : Int) : Within I P (pushHeader sock buf timeout) := by
  unfold pushHeader
  refine (Within.inert hP (by trivial)).bind fun allocated => .ite (.pure _) ?_
  refine (Within.inert hP (by trivial)).bind fun polled => ?_
  cases polled with
  | error => exact .pure _
  | timeout => exact .pure _
  | ready hit => exact .ite (within_pushTcpData hP sock buf) (.pure _)

theorem within_pullType (sock : Sockfd) (type : PacketType) (timeout : Int) : Within I P (pullType sock type timeout) := by
  unfold pullType
  refine (Within.inert hP (by trivial)).bind fun polled => ?_
  cases polled with
  | error => exact .pure _
  | timeout => exact .pure _
  | ready hit =>
    exact .ite (.pure _) ((within_pullTcpData hP sock 1 true).bind fun got => .ite (.pure _) (.ite (.pure _) (.pure _)))

theorem within_pullPacket (sock : Sockfd) (type : PacketType) (timeout : Int) :
    Within I P (pullPacket sock type timeout) := by
  unfold pullPacket
  exact (within_pullType hP sock type timeout).bind fun stat => .ite (.pure _) (within_pullTcpData hP sock _ false)

theorem within_pullSendHeader (sock : Sockfd) (args : SendArgs) (timeout : Int) :
    Within I P (pullSendHeader sock args timeout) := by
  unfold pullSendHeader
  refine (within_pullPacket hP sock _ timeout).bind fun got => .ite (.pure _) ?_
  exact (within_pullTcpData hP sock _ false).bind fun infostr => .ite (.pure _) (.pure _)

theorem within_pullFlowHeader (sock : Sockfd) (args : FlowPacket) (timeout : Int) :
    Within I P (pullFlowHeader sock args timeout) := by
  unfold pullFlowHeader
  exact (within_pullPacket hP sock _ timeout).bind fun got => .ite (.pure _) (.pure _)

theorem within_pullRecvHeader (sock : Sockfd) (args : RecvPacket) (timeout : Int) :
    Within I P (pullRecvHeader sock args timeout) := by
  unfold pullRecvHeader
  exact (within_pullPacket hP sock _ timeout).bind fun got => .ite (.pure _) (.pure _)

/-! ## The mapped file -/

theorem within_mfsync (stream : MFile) : Within I P (mfsync stream) := by
  unfold mfsync
  refine (Within.inert hP (by trivial)).bind fun pagesize => ?_
  cases pagesize with
  | none => exact .pure _
  | some pagesize => exact Within.inert hP (by trivial)

section Conf

variable (hM : ∀ (s : Proc) (stream : MFile), stream.handle = s.conf.filec.mfile.handle → I s →
  I { s with conf := { s.conf with filec := { s.conf.filec with mfile := stream } } })

/-! ## The data channel -/

include hM in
theorem within_pushSegments (sock : Sockfd) (timeout : Int) (rounds rsize : Nat) :
    Within I P (pushSegments sock timeout rounds rsize) := by
  induction rounds generalizing rsize with
  | zero =>
    cases rsize with
    | zero => exact .pure _
    | succ n => exact .cutoff
  | succ rounds ih =>
    cases rsize with
    | zero => exact .pure _
    | succ n =>
      unfold pushSegments
      refine .conf_bind fun s hs => always_setMfile ((Within.inert hP (by trivial)).bind fun polled => ?_) (hM s _ (handle_mfread _ 1 _) hs)
      cases polled with
      | error => exact .pure _
      | timeout => exact .pure _
      | ready hit =>
        refine .ite (.pure _) (.bind ?_ fun stat => .ite (.pure _) (ih _))
        unfold pushUdpData
        refine (Within.inert hP (by trivial)).bind fun sent => ?_
        cases sent with
        | none => exact .pure _
        | some n => exact .ite (.pure _) (.pure _)

include hM in
theorem within_pushChunkData (sock : Sockfd) (chunk : ChunkContext) (timeout : Int) :
    Within I P (pushChunkData sock chunk timeout) := by
  unfold pushChunkData
  refine .conf_bind fun s hs => always_syscall (hP s _ hs (by trivial)) fun allocated => always_ite (always_pure hs) ?_
  exact always_setMfile (.ite (.pure _) (within_pushSegments hP hM sock timeout _ _)) (hM s _ (handle_mfseek _ _) hs)

include hM in
theorem within_pullSegments (sock : Sockfd) (timeout : Int) (rounds rsize : Nat) :
    Within I P (pullSegments sock timeout rounds rsize) := by
  induction rounds generalizing rsize with
  | zero =>
    cases rsize with
    | zero => exact .pure _
    | succ n => exact .cutoff
  | succ rounds ih =>
    cases rsize with
    | zero => exact .pure _
    | succ n =>
      unfold pullSegments
      refine .conf_bind fun s hs => always_syscall (hP s _ hs (by trivial)) fun polled => ?_
      cases polled with
      | error => exact always_pure hs
      | timeout => exact always_pure hs
      | ready hit =>
        refine always_ite (always_pure hs) ?_
        unfold pullUdpData
        -- the datagram is received in the process the file was read in
        refine Tree.Always.bind (J := fun s' => s' = s) ⟨hP s _ hs (by trivial), fun received => ?_⟩ ?_
        · cases received with
          | none => exact always_pure rfl
          | some b => exact always_ite (always_pure rfl) (always_pure rfl)
        · rintro _ got rfl
          exact always_ite (always_pure hs) (always_setMfile (ih _) (hM _ _ (handle_mfwrite _ _ 1 _) hs))

include hM in
theorem within_pullChunkData (sock : Sockfd) (chunk : ChunkContext) (timeout : Int) :
    Within I P (pullChunkData sock chunk timeout) := by
  unfold pullChunkData
  refine .conf_bind fun s hs => always_syscall (hP s _ hs (by trivial)) fun allocated => always_ite (always_pure hs) ?_
  refine always_setMfile (.ite (.pure _) ?_) (hM s _ (handle_mfseek _ _) hs)
  refine .bind ?_ fun stat => .ite (.pure _) ?_
  · split
    · unfold setSocketRcvlowsize
      exact (Within.inert hP (by trivial)).bind fun ok => .ite (.pure _) (.pure _)
    · exact .pure _
  · refine (within_pullSegments hP hM sock timeout _ _).bind fun stat => .ite (.pure _) ?_
    exact .bind .conf fun c => (within_mfsync hP _).bind fun synced => .ite (.pure _) (.pure _)

/-! ## The transfer -/

include hM in
theorem within_pullDataLoop (hd : ∀ s, I s → I { s with phase := .data }) (Γ : Libcrc) (flow : FlowPacket)
    (chcon : ChunkContext) (trycount : Nat) : Within I P (pullDataLoop Γ flow chcon trycount) := by
  induction trycount with
  | zero => exact .pure _
  | succ trycount ih =>
    unfold pullDataLoop
    refine (Within.enter hd).bind fun _ => .bind .conf fun c => ?_
    refine (within_pullChunkData hP hM _ _ _).bind fun stat => .ite (.pure _) (.bind .conf fun c => .ite ?_ ?_)
    · exact (within_pushHeader hP _ _ _).bind fun stat => .ite (.pure _) (.pure _)
    · exact (within_pushHeader hP _ _ _).bind fun stat => .ite (.pure _) ih

theorem within_pushFlowLoop (hf : ∀ s, I s → I { s with phase := .flow }) (flow : FlowPacket) (trycount : Nat) :
    Within I P (pushFlowLoop flow trycount) := by
  induction trycount with
  | zero => exact .pure _
  | succ trycount ih =>
    unfold pushFlowLoop
    refine (Within.enter hf).bind fun _ => .bind .conf fun c => ?_
    refine (within_pushHeader hP _ _ _).bind fun stat => .ite (.pure _) ?_
    exact (within_pullRecvHeader hP _ _ _).bind fun got => .ite (.pure _) (.ite (.pure _) ih)

include hM in
theorem within_pushDataLoop (hd : ∀ s, I s → I { s with phase := .data }) (chcon : ChunkContext) (trycount : Nat) :
    Within I P (pushDataLoop chcon trycount) := by
  induction trycount with
  | zero => exact .pure _
  | succ trycount ih =>
    unfold pushDataLoop
    refine (Within.enter hd).bind fun _ => .bind .conf fun c => ?_
    refine (within_pushChunkData hP hM _ _ _).bind fun stat => .ite (.pure _) ?_
    exact (within_pullRecvHeader hP _ _ _).bind fun got => .ite (.pure _) (.ite (.pure _) ih)

include hM in
theorem within_pullTransfer (hS : ∀ (s : Proc) (seq : UInt32), I s → I { s with conf := { s.conf with seq := seq } })
    (hf : ∀ s, I s → I { s with phase := .flow }) (hd : ∀ s, I s → I { s with phase := .data }) (Γ : Libcrc) (rounds : Nat) : Within I P (pullTransfer Γ rounds) := by
  unfold pullTransfer
  refine .bind .conf fun c => ?_
  -- induction on the rounds: one a chunk
  induction rounds generalizing c with
  | zero => exact .cutoff
  | succ rounds ih =>
    unfold pullTransferLoop
    refine (Within.enter hf).bind fun _ => .bind .conf fun c' => .ite ?_ (.pure _)
    refine (within_pullFlowHeader hP _ _ _).bind fun got => .ite (.pure _) (.ite ?_ ?_)
    · refine (within_pushHeader hP _ _ _).bind fun stat => .ite (.pure _) ?_
      refine (within_pullDataLoop hP hM hd Γ _ _ _).bind fun got => .ite (.pure _) (.ite (.pure _) ?_)
      exact (Within.setConf fun s => hS s _).bind fun _ => ih c'
    · exact (within_pushHeader hP _ _ _).bind fun _ => .pure _

include hM in
theorem within_pushTransfer (hS : ∀ (s : Proc) (seq : UInt32), I s → I { s with conf := { s.conf with seq := seq } })
    (hf : ∀ s, I s → I { s with phase := .flow }) (hd : ∀ s, I s → I { s with phase := .data }) (Γ : Libcrc) (rounds : Nat) :
    Within I P (pushTransfer Γ rounds) := by
  unfold pushTransfer
  refine (Within.enter hf).bind fun _ => .bind .conf fun c => ?_
  -- induction on the rounds: one a chunk
  generalize c.tfTrycount = trycount
  induction rounds generalizing trycount with
  | zero => exact .cutoff
  | succ rounds ih =>
    unfold pushTransferLoop
    refine .bind .conf fun c' => .ite ?_ (.pure _)
    refine (within_pushFlowLoop hP hf _ _).bind fun got => .ite (.pure _) (.ite (.pure _) ?_)
    refine (within_pushDataLoop hP hM hd _ _).bind fun got => .ite (.pure _) (.ite (.pure _) ?_)
    exact (Within.setConf fun s => hS s _).bind fun _ => ih _

end Conf

/-! ## The verification -/

theorem within_pushHandshake (hC : ∀ (s : Proc) (chcount : UInt32) (pchsize : UInt16), I s →
      I { s with conf := { s.conf with chcount := chcount, pchsize := pchsize } })
    (hS : ∀ (s : Proc) (seq : UInt32), I s → I { s with conf := { s.conf with seq := seq } })
    (hh : ∀ s, I s → I { s with phase := .handshake }) : Within I P pushHandshake := by
  unfold pushHandshake
  refine (Within.enter hh).bind fun _ => (Within.setConf fun s => hC s _ _).bind fun _ => .bind .conf fun c => ?_
  refine (within_pushHeader hP _ _ _).bind fun stat => .ite (.pure _) ((within_pullRecvHeader hP _ _ _).bind fun got => ?_)
  exact .ite (.pure _) ((Within.setConf fun s => hS s _).bind fun _ => .pure _)

theorem within_pushVerification (hv : ∀ s, I s → I { s with phase := .verification }) (Γ : Libcrc) :
    Within I P (pushVerification Γ) := by
  unfold pushVerification
  refine (Within.enter hv).bind fun _ => .bind .conf fun c => (within_pushHeader hP _ _ _).bind fun stat => .ite (.pure _) ?_
  exact (within_pullRecvHeader hP _ _ _).bind fun got => .ite (.pure _) (.pure _)

theorem within_pullVerification (hv : ∀ s, I s → I { s with phase := .verification }) (Γ : Libcrc) (garbage : SendArgs) :
    Within I P (pullVerification Γ garbage) := by
  unfold pullVerification
  refine (Within.enter hv).bind fun _ => .bind .conf fun c => ?_
  refine (Within.inert hP (by trivial)).bind fun created => .ite (.pure _) ?_
  refine (within_pullSendHeader hP _ _ _).bind fun got => .ite (.pure _) ?_
  refine (Within.inert hP (by trivial)).bind fun joined => .ite (.pure _) ?_
  exact (within_pushHeader hP _ _ _).bind fun stat => .ite (.pure _) (.pure _)

end Functions

/-! ## Files -/

section Files

variable {I : Proc → Prop} {P : Proc → Call → Prop} (hP : ∀ s c, I s → c.Steady → P s c)
include hP

theorem Within.steady {c : Call} (h : c.Steady) : Within I P (RufShare.syscall c) :=
  .syscall (fun s hs => hP s c hs h)

theorem within_mfopen (path : Bytes) : Within I P (mfopen path .rplus) := by
  unfold mfopen
  refine (Within.steady hP (by trivial)).bind fun opened => ?_
  cases opened with
  | none => exact .pure _
  | some file =>
    refine (Within.steady hP (by trivial)).bind fun info => ?_
    cases info with
    | none => exact (Within.steady hP (by trivial)).bind fun _ => .pure _
    | some stSize =>
      refine (Within.steady hP (by trivial)).bind fun mapped => ?_
      cases mapped with
      | none => exact (Within.steady hP (by trivial)).bind fun _ => .pure _
      | some buf => exact .pure _

theorem within_mfclose (stream : MFile) : Within I P (mfclose stream) := by
  unfold mfclose
  refine .bind ?_ fun munmapStat => .bind ?_ fun fcloseStat => .pure _
  · split
    · exact Within.steady hP (by trivial)
    · exact .pure _
  · cases stream.file with
    | none => exact .pure _
    | some file => exact Within.steady hP (by trivial)

theorem within_endFileStream : Within I P endFileStream := by
  unfold endFileStream
  exact .bind .conf fun c => (within_mfclose hP _).bind fun closed => .ite (.pure _) (.pure _)

/-- `create_file` opens the path to write. -/
theorem within_createFile {path : Bytes} (size : Nat) (hp : ∀ s, I s → P s (.fopen path .wplus)) :
    Within I P (createFile path size) := by
  unfold createFile
  refine (Within.syscall hp).bind fun opened => ?_
  cases opened with
  | none => exact .pure _
  | some file =>
    refine .ite ((Within.steady hP (by trivial)).bind fun _ => .pure _) ?_
    refine (Within.steady hP (by trivial)).bind fun info => ?_
    cases info with
    | none => exact (Within.steady hP (by trivial)).bind fun _ => .pure _
    | some avail =>
      refine .ite ((Within.steady hP (by trivial)).bind fun _ => .pure _) ?_
      refine (Within.steady hP (by trivial)).bind fun truncated => ?_
      exact .ite ((Within.steady hP (by trivial)).bind fun _ => .pure _) (.pure _)

variable (hF : ∀ (s : Proc) (filec : FileContext), I s → I { s with conf := { s.conf with filec := filec } })

include hF in
theorem within_startFileStream {path : Bytes} (hp : ∀ s, I s → P s (.fopen path .wplus)) :
    Within I P (startFileStream path .mwr) := by
  unfold startFileStream prepareFile
  refine .bind (.bind .conf fun c => within_createFile hP _ hp) fun stat => .ite (.pure _) ?_
  refine (within_mfopen hP path).bind fun mfile => .ite (.pure _) ?_
  refine (Within.setConf fun s => hF s _).bind fun _ => ?_
  cases extractFileName path (path.length + 1) with
  | none => exact .pure _
  | some filename => exact (Within.setConf fun s => hF s _).bind fun _ => .pure _

include hF in
/-- `pull_handshake` opens a file to write. -/
theorem within_pullHandshake (hO : ∀ (s : Proc) header, I s → I { s with conf := storeOffer header s.conf })
    (hS : ∀ (s : Proc) (seq : UInt32), I s → I { s with conf := { s.conf with seq := seq } })
    (hp : ∀ s path, I s → P s (.fopen path .wplus)) (hh : ∀ s, I s → I { s with phase := .handshake })
    (garbage : SendArgs) : Within I P (pullHandshake garbage) := by
  have hinert : ∀ s c, I s → c.Inert → P s c := fun s c hs h => hP s c hs h.steady
  unfold pullHandshake
  refine (Within.enter hh).bind fun _ => .bind .conf fun c => ?_
  refine (within_pullSendHeader hinert _ _ _).bind fun got => .ite (.pure _) (.ite (within_pushHeader hinert _ _ _) ?_)
  refine (Within.setConf fun s => hO s _).bind fun _ => .bind .conf fun c => ?_
  refine (within_startFileStream hP hF (fun s => hp s _)).bind fun made => ?_
  exact (within_pushHeader hinert _ _ _).bind fun stat => .ite (.pure _) ((Within.setConf fun s => hS s _).bind fun _ => .pure _)

end Files

/-! ## Opening and closing sockets -/

section Sockets

variable {I : Proc → Prop} {P : Proc → Call → Prop} (hP : ∀ s c, I s → c.Plain → P s c)
include hP

theorem Within.plain {c : Call} (h : c.Plain) : Within I P (RufShare.syscall c) :=
  .syscall (fun s hs => hP s c hs h)

theorem within_closeSocket (sock : Sockfd) : Within I P (closeSocket sock) := by
  unfold closeSocket
  exact (Within.plain hP (by trivial)).bind fun ok => .ite (.pure _) (.pure _)

theorem within_initTcpSocket (sock : Sockfd) (srcIp dstIp : Bytes) (srcPort dstPort : UInt16) :
    Within I P (initTcpSocket sock srcIp srcPort dstIp dstPort false) := by
  unfold initTcpSocket
  cases inetPton srcIp with
  | none => exact .pure _
  | some src =>
    cases inetPton dstIp with
    | none => exact .pure _
    | some dst =>
      refine (Within.plain hP (by trivial)).bind fun opened => ?_
      cases opened with
      | none => exact .pure _
      | some sock =>
        refine (Within.plain hP (by trivial)).bind fun ok => .ite (.pure _) ?_
        exact (Within.plain hP (by trivial)).bind fun ok => .ite (.pure _) (.pure _)

theorem within_acceptNewConnection (sock : Sockfd) (timeout : Int) : Within I P (acceptNewConnection sock timeout) := by
  unfold acceptNewConnection
  refine (Within.plain hP (by trivial)).bind fun ok => .ite (.pure _) ?_
  refine (Within.plain hP (by trivial)).bind fun polled => ?_
  cases polled with
  | error => exact .pure _
  | timeout => exact .pure _
  | ready hit =>
    refine (Within.plain hP (by trivial)).bind fun accepted => ?_
    cases accepted with
    | none => exact .pure _
    | some conn => exact .ite (.pure _) (.pure _)

theorem within_pullClosing (hc : ∀ s, I s → I { s with phase := .closing }) : Within I P pullClosing := by
  unfold pullClosing
  refine (Within.enter hc).bind fun _ => (within_endFileStream fun s c hs h => hP s c hs h.plain).bind fun stat => .ite (.pure _) ?_
  refine .bind .conf fun c => (within_closeSocket hP _).bind fun stat => .ite (.pure _) ?_
  exact (within_closeSocket hP _).bind fun stat => .ite (.pure _) (within_closeSocket hP _)

section Conf

variable (hI : ∀ (s : Proc) (f : InitConfig → InitConfig), I s → I { s with conf := f s.conf })

omit hP in
include hI in
theorem Within.set (f : InitConfig → InitConfig) : Within I P (RufShare.setConf f) := .setConf (fun s => hI s f)

include hI in
theorem within_startCntl : Within I P (startCntl false) := by
  unfold startCntl
  refine .bind .conf fun c => .ite (.pure _) ?_
  refine (within_initTcpSocket hP _ _ _ _ _).bind fun got => ?_
  exact (Within.set hI _).bind fun _ => .pure _

include hI in
theorem within_acceptCntl (timeout : Int) : Within I P (acceptCntl timeout) := by
  unfold acceptCntl
  refine .bind .conf fun c => (within_acceptNewConnection hP _ _).bind fun got => ?_
  obtain ⟨stat, accepted⟩ := got
  cases accepted with
  | none => exact .pure _
  | some conn => exact (Within.set hI _).bind fun _ => .pure _

include hI in
/-- `start_data` opens a data socket and connects it. -/
theorem within_startData (hs : ∀ s, I s → P s (.socket .dgram)) (hc : ∀ s fd ip port, I s → P s (.connect fd ip port)) :
    Within I P startData := by
  unfold startData initUdpSocket
  refine .bind .conf fun c => .ite (.pure _) (.bind ?_ fun got => (Within.set hI _).bind fun _ => .pure _)
  cases inetPton c.addrs.localIp with
  | none => exact .pure _
  | some src =>
    cases inetPton c.addrs.remoteIp with
    | none => exact .pure _
    | some dst =>
      refine (Within.syscall hs).bind fun opened => ?_
      cases opened with
      | none => exact .pure _
      | some sock =>
        refine .bind (.pure _) fun ok => .ite (.pure _) ?_
        refine (Within.plain hP (by trivial)).bind fun ok => .ite (.pure _) ?_
        refine (Within.plain hP (by trivial)).bind fun ok => .ite (.pure _) ?_
        exact (Within.syscall fun s => hc s _ _ _).bind fun ok => .ite (.pure _) (.pure _)

end Conf

end Sockets

/-! ## A receiver to run

A receiver and a system in which every call succeeds, for the runs on fixed inputs that stand beside the theorems. -/

namespace Sample

/-- `"1.1.1.1"`. -/
def ip : Bytes := [49, 46, 49, 46, 49, 46, 49]

/-- The addresses of both parties. -/
def addrs : CntlAddrs := { filename := [97], name := [98], localIp := ip, remoteIp := ip, localPort := 1, remotePort := 1 }

/-- The receiver's configuration. -/
def receiver : InitConfig :=
  { chsize := 0, pchsize := 0, chcount := 0, seq := 0, cntlSock := 0, dataSock := 0, connSock := 0, castSock := 0,
    filec := { mfile := { file := none, isOpen := false, size := 0, pos := 0, buf := [] }, size := 0, name := [] },
    addrs := addrs, segsize := 0, hstSend := 1, hstRecv := 1, vftSend := 1, vftRecv := 1, tftFlow := 1, tftRecv := 1,
    tftData := 1, tfTrycount := 1 }

/-- Checksums that are all zero. -/
def zero : Libcrc := { crc16 := fun _ => 0, crc32 := fun _ => 0 }

/-- A header that nothing has been read into. -/
def blank : SendArgs := { packet := packSendPacket 0 0 0 0, info := addrs }

/-- What is received of the first of some datagrams. -/
theorem length_received (datagrams : List Bytes) (size : Nat) : ((datagrams.headD []).take size).length ≤ size :=
  List.length_take_le _ _

/-- Every call succeeds; the control channel delivers `w`. -/
def env (w : Bytes) (_ : Proc) : (c : Call) → c.Answer × Bytes
  | .malloc _ | .calloc _ _ => (true, w)
  | .poll _ _ _ _ => (.ready true, w)
  | .send _ _ buf => (some buf.length, w)
  | .recv .stream _ size peek => (some ⟨w.take size, List.length_take_le _ _⟩, if peek then w else w.drop size)
  | .recv .dgram _ size _ => (some ⟨List.replicate size 0, by simp⟩, w)
  | .socket _ => (some 3, w)
  | .setsockopt _ _ | .bind _ _ _ | .connect _ _ _ | .listen _ _ | .close _ | .fclose _ | .ftruncate _ _ | .munmap _
  | .msync _ _ | .pthreadCreate | .pthreadJoin => (true, w)
  | .accept _ => (some { fd := 4, inet := true, ip := { a := 1, b := 1, c := 1, d := 1 }, port := 1 }, w)
  | .fopen _ _ => (some 5, w)
  | .fstatvfs _ => (some (1000, 4096), w)
  | .stat _ | .fstat _ => (some 1, w)
  | .mmap _ size => (some ⟨List.replicate size 0, by simp⟩, w)
  | .sysconf => (some 4096, w)

end Sample

end RufShare
