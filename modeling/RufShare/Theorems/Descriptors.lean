import RufShare.Broadcast
import RufShare.Lemmas.Role

/-!
# Who owns a descriptor

The threads of `pull_file` agree on the broadcast socket by its number alone. Each acts on its own sockets exactly when the receiver
closes `conf->cast_sock` after the broadcast has stored its socket there, and the broadcast neither sends nor closes after that. The
order decides it: nothing keeps the broadcast from going on, and the number is soon another's.
-/

namespace RufShare

open Resumption

/-- The broadcast's sends and closes and the receiver's close of `conf->cast_sock` act on the broadcast socket, and the receiver's
other closes on something that is open. -/
def Entry.Owned (e : Entry) : Prop :=
  match e.side, e.event.call with
  | .left, .send _ fd _ => e.table fd = some .cast
  | .left, .close fd => e.table fd = some .cast
  | .right, .close fd => if e.event.state.phase = .setup then e.table fd = some .cast else e.table fd ≠ none
  | _, _ => True

instance : (e : Entry) → Decidable e.Owned
  | ⟨.left, ⟨_, .send _ fd _, _⟩, t⟩ => inferInstanceAs (Decidable (t fd = some .cast))
  | ⟨.left, ⟨_, .close fd, _⟩, t⟩ => inferInstanceAs (Decidable (t fd = some .cast))
  | ⟨.right, ⟨s, .close fd, _⟩, t⟩ =>
    inferInstanceAs (Decidable (if s.phase = .setup then t fd = some .cast else t fd ≠ none))
  | ⟨.left, ⟨_, .malloc _, _⟩, _⟩ | ⟨.left, ⟨_, .calloc _ _, _⟩, _⟩ | ⟨.left, ⟨_, .poll _ _ _ _, _⟩, _⟩
  | ⟨.left, ⟨_, .recv _ _ _ _, _⟩, _⟩ | ⟨.left, ⟨_, .socket _, _⟩, _⟩ | ⟨.left, ⟨_, .setsockopt _ _, _⟩, _⟩
  | ⟨.left, ⟨_, .bind _ _ _, _⟩, _⟩ | ⟨.left, ⟨_, .connect _ _ _, _⟩, _⟩ | ⟨.left, ⟨_, .listen _ _, _⟩, _⟩
  | ⟨.left, ⟨_, .accept _, _⟩, _⟩ | ⟨.left, ⟨_, .fopen _ _, _⟩, _⟩ | ⟨.left, ⟨_, .fclose _, _⟩, _⟩
  | ⟨.left, ⟨_, .fstatvfs _, _⟩, _⟩ | ⟨.left, ⟨_, .ftruncate _ _, _⟩, _⟩ | ⟨.left, ⟨_, .stat _, _⟩, _⟩
  | ⟨.left, ⟨_, .fstat _, _⟩, _⟩ | ⟨.left, ⟨_, .mmap _ _, _⟩, _⟩ | ⟨.left, ⟨_, .munmap _, _⟩, _⟩ | ⟨.left, ⟨_, .sysconf, _⟩, _⟩
  | ⟨.left, ⟨_, .msync _ _, _⟩, _⟩ | ⟨.left, ⟨_, .pthreadCreate, _⟩, _⟩ | ⟨.left, ⟨_, .pthreadJoin, _⟩, _⟩
  | ⟨.right, ⟨_, .malloc _, _⟩, _⟩ | ⟨.right, ⟨_, .calloc _ _, _⟩, _⟩ | ⟨.right, ⟨_, .poll _ _ _ _, _⟩, _⟩
  | ⟨.right, ⟨_, .recv _ _ _ _, _⟩, _⟩ | ⟨.right, ⟨_, .socket _, _⟩, _⟩ | ⟨.right, ⟨_, .setsockopt _ _, _⟩, _⟩
  | ⟨.right, ⟨_, .bind _ _ _, _⟩, _⟩ | ⟨.right, ⟨_, .connect _ _ _, _⟩, _⟩ | ⟨.right, ⟨_, .listen _ _, _⟩, _⟩
  | ⟨.right, ⟨_, .accept _, _⟩, _⟩ | ⟨.right, ⟨_, .fopen _ _, _⟩, _⟩ | ⟨.right, ⟨_, .fclose _, _⟩, _⟩
  | ⟨.right, ⟨_, .fstatvfs _, _⟩, _⟩ | ⟨.right, ⟨_, .ftruncate _ _, _⟩, _⟩ | ⟨.right, ⟨_, .stat _, _⟩, _⟩
  | ⟨.right, ⟨_, .fstat _, _⟩, _⟩ | ⟨.right, ⟨_, .mmap _ _, _⟩, _⟩ | ⟨.right, ⟨_, .munmap _, _⟩, _⟩
  | ⟨.right, ⟨_, .sysconf, _⟩, _⟩ | ⟨.right, ⟨_, .msync _ _, _⟩, _⟩ | ⟨.right, ⟨_, .pthreadCreate, _⟩, _⟩
  | ⟨.right, ⟨_, .pthreadJoin, _⟩, _⟩ | ⟨.right, ⟨_, .send _ _ _, _⟩, _⟩ => isTrue trivial

/-- The broadcast opens its socket. -/
def Entry.OpensCast (e : Entry) : Prop :=
  e.side = .left ∧ match e.event with
    | ⟨_, .socket _, some _⟩ => True
    | _ => False

/-- The broadcast closes a descriptor. -/
def Entry.EndsCast (e : Entry) : Prop := e.side = .left ∧ ∃ fd, e.event.call = .close fd

/-- The broadcast sends or closes. -/
def Entry.UsesCast (e : Entry) : Prop := e.side = .left ∧ ((∃ ty fd buf, e.event.call = .send ty fd buf) ∨ ∃ fd, e.event.call = .close fd)

/-- The receiver closes `conf->cast_sock`. -/
def Entry.QuitsCast (e : Entry) : Prop := ClosesCast e.side e.event.state e.event.call

/-- The receiver closes `conf->cast_sock` after the broadcast has opened its socket and before it closes it; and the broadcast sends
and closes only before that. -/
def Entry.InTurn (before : List Entry) (e : Entry) : Prop :=
  (e.QuitsCast → (∃ b ∈ before, b.OpensCast) ∧ ∀ b ∈ before, ¬b.EndsCast) ∧ (e.UsesCast → ∀ b ∈ before, ¬b.QuitsCast)

/-- Every call of a record came in its turn. -/
def InTurn (log : List Entry) : Prop := ∀ before e rest, log = before ++ e :: rest → e.InTurn before

namespace DescriptorsAux

theorem inTurn_nil : InTurn [] := by
  intro before e rest h
  cases before <;> nomatch h

/-- A record is extended in turn. -/
theorem inTurn_concat {log : List Entry} {e : Entry} : InTurn (log ++ [e]) ↔ InTurn log ∧ e.InTurn log := by
  constructor
  · intro h
    refine ⟨?_, h log e [] rfl⟩
    rintro before x rest rfl
    exact h before x (rest ++ [e]) (by simp)
  · rintro ⟨hlog, he⟩ before x rest h
    rcases List.eq_nil_or_concat rest with rfl | ⟨rest, y, rfl⟩
    · obtain ⟨rfl, hx⟩ := List.append_inj' h rfl
      obtain rfl : e = x := (List.cons.inj hx).1
      exact he
    · rw [List.concat_eq_append, ← List.cons_append, ← List.append_assoc] at h
      exact hlog before x rest (List.append_inj' h rfl).1

/-! ## The broadcast -/

/-- Where the broadcast stands. -/
inductive Caster where
  | idle
  | holds (fd : Sockfd)
  | done

/-- The broadcast opens one socket, sends only on it, and closes it last. -/
def caster : Monitor Proc Call.Answer Caster where
  hold _ _ := True
  guar v _ c :=
    match c with
    | .socket _ => v = .idle
    | .send _ fd _ | .close fd => v = .holds fd
    | .accept _ | .fopen _ _ | .fclose _ => False
    | _ => True
  rely _ _ _ _ := True
  next v _ c r :=
    match c, r with
    | .socket _, some fd => .holds fd
    | .close _, _ => .done
    | _, _ => v

theorem sat_broadcastLoop (b : CastConfig) (header : CastArgs) (rounds : Nat) : ∀ trycount (s : Proc),
    (broadcastLoop b header rounds trycount s).Sat caster (.holds s.conf.castSock) (fun v s' _ => v = .holds s'.conf.castSock) := by
  induction rounds with
  | zero => exact fun _ _ => trivial
  | succ rounds ih =>
    intro trycount s
    unfold broadcastLoop
    refine sat_ite (fun _ => sat_conf (sat_bind ?_)) (fun _ => rfl)
    unfold pushBroadcastHeader pushUdpData
    refine ⟨trivial, trivial, fun allocated _ => sat_ite (fun _ => ih _ s) fun _ => ⟨trivial, trivial, fun polled _ => ?_⟩⟩
    cases polled with
    | error => exact ih _ s
    | timeout => exact ih _ s
    | ready hit =>
      refine sat_ite (fun _ => ⟨trivial, rfl, fun sent _ => ?_⟩) (fun _ => ih _ s)
      cases sent with
      | none => exact ih _ s
      | some n => exact sat_ite (fun _ => ih _ s) (fun _ => ih _ s)

theorem sat_startBroadcast (b : CastConfig) (rounds : Nat) (s : Proc) :
    (startBroadcast b rounds s).Sat caster .idle (fun _ _ _ => True) := by
  -- the loop and the close, once the socket is there
  have hrest (sock : Sockfd) : ((do
      broadcastLoop b (castArgs s.conf) rounds b.bcTrycount
      let c ← conf
      closeSocket c.castSock : Prog Status) { s with conf := { s.conf with castSock := sock } }).Sat caster (.holds sock)
        (fun _ _ _ => True) := by
    refine sat_bind ((sat_broadcastLoop b (castArgs s.conf) rounds _ _).mono ?_)
    rintro v s' _ rfl
    exact ⟨trivial, rfl, fun ok _ => sat_ite (fun _ => trivial) (fun _ => trivial)⟩
  unfold startBroadcast initUdpSocket
  refine sat_conf (sat_bind ?_)
  cases inetPton s.conf.addrs.localIp with
  | none => exact sat_setConf (sat_ite (fun _ => trivial) (fun hne => absurd nofun hne))
  | some src =>
    cases inetPton s.conf.addrs.remoteIp with
    | none => exact sat_setConf (sat_ite (fun _ => trivial) (fun hne => absurd nofun hne))
    | some dst =>
      refine ⟨trivial, rfl, fun opened _ => ?_⟩
      cases opened with
      | none => exact sat_setConf (sat_ite (fun _ => trivial) (fun hne => absurd nofun hne))
      | some sock =>
        refine ⟨trivial, trivial, fun ok _ => sat_ite (fun _ => sat_setConf (sat_ite (fun _ => trivial) nofun)) fun _ => ?_⟩
        refine ⟨trivial, trivial, fun ok _ => sat_ite (fun _ => sat_setConf (sat_ite (fun _ => trivial) nofun)) fun _ => ?_⟩
        refine ⟨trivial, trivial, fun ok _ => sat_ite (fun _ => sat_setConf (sat_ite (fun _ => trivial) nofun)) fun _ => ?_⟩
        refine ⟨trivial, trivial, fun ok _ => sat_ite (fun _ => sat_setConf (sat_ite (fun _ => trivial) nofun)) fun _ => ?_⟩
        exact sat_setConf (sat_ite (fun hne => absurd rfl hne) (fun _ => hrest sock))

/-! ## The receiver -/

/-- The sockets the receiver has open, and whether it has closed `conf->cast_sock`. -/
structure Pulling where
  held : List Sockfd
  quit : Bool

/-- The receiver closes `conf->cast_sock` once, and otherwise only what it has open. -/
def pulling : Monitor Proc Call.Answer Pulling where
  hold _ _ := True
  guar v s c :=
    match c with
    | .close fd => if s.phase = .setup then v.quit = false else fd ∈ v.held
    | _ => True
  rely _ _ _ _ := True
  next v s c r :=
    match c, r with
    | .socket _, some fd => { v with held := fd :: v.held }
    | .accept _, some conn => { v with held := conn.fd :: v.held }
    | .close fd, _ => if s.phase = .setup then { v with quit := true } else { v with held := v.held.erase fd }
    | _, _ => v

/-- A call that neither opens nor closes a socket. -/
def Idle (c : Call) : Prop := c.Steady ∨ ∃ path, c = .fopen path .wplus

theorem pulling_idle {v : Pulling} {s : Proc} {c : Call} (h : Idle c) :
    pulling.guar v s c ∧ ∀ r, pulling.next v s c r = v := by
  rcases h with h | ⟨path, rfl⟩
  · cases c with
    | socket ty => exact h.elim
    | accept fd => exact h.elim
    | close fd => exact h.elim
    | _ => exact ⟨trivial, fun _ => rfl⟩
  · exact ⟨trivial, fun _ => rfl⟩

/-- A part of the receiver that opens and closes no socket. -/
theorem sat_idle {α : Type} {I : Proc → Prop} {x : Prog α} (hx : Within I (fun _ c => Idle c) x) {s : Proc} (hs : I s) (v : Pulling) :
    (x s).Sat pulling v (fun v' s' _ => v' = v ∧ I s') :=
  (hx s hs).sat (fun _ => trivial) (fun _ _ h => pulling_idle h)

/-- The sockets a configuration names. -/
def Names (cntl conn : Sockfd) (c : InitConfig) : Prop := c.cntlSock = cntl ∧ c.connSock = conn

theorem sat_startCntl (s : Proc) (hs : s.phase = .setup) :
    (startCntl false s).Sat pulling ⟨[], false⟩ (fun v s' stat => stat = .success →
      v = ⟨[s'.conf.cntlSock], false⟩ ∧ s'.phase = .setup) := by
  unfold startCntl initTcpSocket
  refine sat_conf (sat_ite (fun hne => sat_pure fun h => absurd h hne) fun _ => sat_bind ?_)
  cases inetPton s.conf.addrs.localIp with
  | none => exact sat_setConf nofun
  | some src =>
    cases inetPton s.conf.addrs.remoteIp with
    | none => exact sat_setConf nofun
    | some dst =>
      refine ⟨trivial, trivial, fun opened _ => ?_⟩
      cases opened with
      | none => exact sat_setConf nofun
      | some sock =>
        refine ⟨trivial, trivial, fun ok _ => sat_ite (fun _ => sat_setConf nofun) fun _ => ?_⟩
        exact ⟨trivial, trivial, fun ok _ => sat_ite (fun _ => sat_setConf nofun) fun _ => sat_setConf fun _ => ⟨rfl, hs⟩⟩

theorem sat_acceptCntl {s : Proc} (hs : s.phase = .setup) :
    (acceptCntl foreverTimeout s).Sat pulling ⟨[s.conf.cntlSock], false⟩ (fun v s' stat => stat = .success →
      v = ⟨[s'.conf.connSock, s'.conf.cntlSock], false⟩ ∧ s'.phase = .setup) := by
  unfold acceptCntl acceptNewConnection
  refine sat_conf (sat_bind ⟨trivial, trivial, fun ok _ => sat_ite (fun _ => nofun) fun _ => ⟨trivial, trivial, fun polled _ => ?_⟩⟩)
  cases polled with
  | error => exact nofun
  | timeout => exact nofun
  | ready hit =>
    refine ⟨trivial, trivial, fun accepted _ => ?_⟩
    cases accepted with
    | none => exact nofun
    | some conn => exact sat_ite (fun _ => nofun) fun _ => sat_setConf fun _ => ⟨rfl, hs⟩

theorem sat_startData {cntl conn : Sockfd} {s : Proc} (hs : Names cntl conn s.conf) :
    (startData s).Sat pulling ⟨[conn, cntl], true⟩ (fun v s' stat => stat = .success →
      v = ⟨[s'.conf.dataSock, conn, cntl], true⟩ ∧ Names cntl conn s'.conf) := by
  unfold startData initUdpSocket
  refine sat_conf (sat_ite (fun hne => sat_pure fun h => absurd h hne) fun _ => sat_bind ?_)
  cases inetPton s.conf.addrs.localIp with
  | none => exact sat_setConf nofun
  | some src =>
    cases inetPton s.conf.addrs.remoteIp with
    | none => exact sat_setConf nofun
    | some dst =>
      refine ⟨trivial, trivial, fun opened _ => ?_⟩
      cases opened with
      | none => exact sat_setConf nofun
      | some sock =>
        refine sat_bind (sat_ite nofun fun _ => sat_ite nofun fun _ => ?_)
        refine ⟨trivial, trivial, fun ok _ => sat_ite (fun _ => sat_setConf nofun) fun _ => ?_⟩
        refine ⟨trivial, trivial, fun ok _ => sat_ite (fun _ => sat_setConf nofun) fun _ => ?_⟩
        refine ⟨trivial, trivial, fun ok _ => sat_ite (fun _ => sat_setConf nofun) fun _ => ?_⟩
        exact sat_setConf fun _ => ⟨rfl, hs⟩

/-- A close after the handshake of a socket the receiver has open. -/
theorem sat_closeSocket {sock : Sockfd} {held : List Sockfd} {s : Proc} {Q : Pulling → Proc → Status → Prop}
    (hphase : s.phase ≠ .setup) (hheld : sock ∈ held) (h : ∀ stat, Q ⟨held.erase sock, true⟩ s stat) :
    (closeSocket sock s).Sat pulling ⟨held, true⟩ Q := by
  have hguar : pulling.guar ⟨held, true⟩ s (.close sock) := by
    simp only [pulling, hphase, if_false]
    exact hheld
  have hnext (ok : Bool) : pulling.next ⟨held, true⟩ s (.close sock) ok = ⟨held.erase sock, true⟩ := if_neg hphase
  refine ⟨trivial, hguar, fun ok _ => ?_⟩
  rw [hnext]
  exact sat_ite (fun _ => h _) (fun _ => h _)

theorem sat_pullClosing {cntl conn data : Sockfd} {s : Proc} (hs : Names cntl conn s.conf) (hdata : s.conf.dataSock = data) :
    (pullClosing s).Sat pulling ⟨[data, conn, cntl], true⟩ (fun _ _ _ => True) := by
  have hend : Within (fun s => (Names cntl conn s.conf ∧ s.conf.dataSock = data) ∧ s.phase = .closing) (fun _ c => Idle c)
      endFileStream := within_endFileStream fun _ _ _ h => .inl h
  -- what is open after each of the closes
  have hfirst : ([data, conn, cntl].erase cntl).Perm [data, conn] := by
    have hmem : cntl ∈ [data, conn, cntl] := by simp
    exact ((List.perm_cons_erase hmem).symm.trans (List.perm_append_singleton cntl [data, conn])).cons_inv
  have hsecond : (([data, conn, cntl].erase cntl).erase data).Perm [conn] := by
    have := hfirst.erase data
    rwa [List.erase_cons_head] at this
  unfold pullClosing
  refine sat_enter (sat_bind ((sat_idle hend (s := { s with phase := .closing }) ⟨⟨hs, hdata⟩, rfl⟩ _).mono ?_))
  rintro v s₁ stat ⟨rfl, ⟨⟨hcntl, hconn⟩, hdata₁⟩, hphase⟩
  have hout : s₁.phase ≠ .setup := by
    rw [hphase]
    decide
  refine sat_ite (fun _ => trivial) fun _ => sat_conf (sat_bind ?_)
  rw [hcntl, hconn, hdata₁]
  refine sat_closeSocket hout (by simp) fun stat => sat_ite (fun _ => trivial) fun _ => sat_bind ?_
  refine sat_closeSocket hout (hfirst.mem_iff.2 (by simp)) fun stat => sat_ite (fun _ => trivial) fun _ => ?_
  exact sat_closeSocket hout (hsecond.mem_iff.2 (by simp)) fun _ => trivial

theorem sat_pullPhases (Γ : Libcrc) (garbage : SendArgs) (rounds : Nat) {cntl conn : Sockfd} {s : Proc}
    (hs : Names cntl conn s.conf) : (pullPhases Γ garbage rounds startData s).Sat pulling ⟨[conn, cntl], true⟩ (fun v s' stat =>
      stat = .success → v = ⟨[s'.conf.dataSock, conn, cntl], true⟩ ∧ Names cntl conn s'.conf) := by
  have hidle (I : Proc → Prop) : ∀ (s : Proc) (c : Call), I s → c.Steady → Idle c := fun _ _ _ h => .inl h
  have hinert (I : Proc → Prop) : ∀ (s : Proc) (c : Call), I s → c.Inert → Idle c := fun _ _ _ h => .inl h.steady
  have hhand : Within (fun s => Names cntl conn s.conf) (fun _ c => Idle c) (pullHandshake garbage) :=
    within_pullHandshake (hidle _) (fun _ _ h => h) (fun _ _ h => h) (fun _ _ h => h) (fun _ path _ => .inr ⟨path, rfl⟩)
      (fun _ h => h) garbage
  unfold pullPhases
  refine sat_bind ((sat_idle hhand hs _).mono ?_)
  rintro v s₁ stat ⟨rfl, hs₁⟩
  refine sat_ite (fun hne => sat_pure fun h => absurd h hne) fun _ => sat_bind ((sat_startData hs₁).mono ?_)
  intro v s₂ stat h₂
  refine sat_ite (fun hne => sat_pure fun h => absurd h hne) fun hstat => ?_
  obtain ⟨rfl, hs₂⟩ := h₂ (Decidable.not_not.1 hstat)
  -- the rest keeps all three sockets
  have hseg : Within (fun s => Names cntl conn s.conf ∧ s.conf.dataSock = s₂.conf.dataSock) (fun _ c => Idle c) setSegsize :=
    .setConf fun _ h => h
  have htrans : Within (fun s => Names cntl conn s.conf ∧ s.conf.dataSock = s₂.conf.dataSock) (fun _ c => Idle c)
      (pullTransfer Γ rounds) :=
    within_pullTransfer (hinert _) (fun _ _ _ h => h) (fun _ _ h => h) (fun _ h => h) (fun _ h => h) Γ rounds
  have hverif : Within (fun s => Names cntl conn s.conf ∧ s.conf.dataSock = s₂.conf.dataSock) (fun _ c => Idle c)
      (pullVerification Γ garbage) := within_pullVerification (hinert _) (fun _ h => h) Γ garbage
  refine sat_bind ((sat_idle hseg ⟨hs₂, rfl⟩ _).mono ?_)
  rintro v s₃ _ ⟨rfl, hs₃⟩
  refine sat_bind ((sat_idle htrans hs₃ _).mono ?_)
  rintro v s₄ stat ⟨rfl, hs₄⟩
  refine sat_ite (fun hne => sat_pure fun h => absurd h hne) fun _ => (sat_idle hverif hs₄ _).mono ?_
  rintro v s₅ stat ⟨rfl, hs₅, hdata⟩ _
  rw [hdata]
  exact ⟨rfl, hs₅⟩

theorem sat_startPuller (Γ : Libcrc) (garbage : SendArgs) (rounds : Nat) {s : Proc} (hs : s.phase = .setup) :
    (startPuller Γ garbage rounds s).Sat pulling ⟨[], false⟩ (fun _ _ _ => True) := by
  unfold startPuller
  refine sat_bind ((sat_startCntl s hs).mono ?_)
  intro v s₁ stat h₁
  refine sat_ite (fun _ => trivial) fun hstat => ?_
  obtain ⟨rfl, hs₁⟩ := h₁ (Decidable.not_not.1 hstat)
  refine sat_bind ((sat_acceptCntl hs₁).mono ?_)
  intro v s₂ stat h₂
  refine sat_ite (fun _ => trivial) fun hstat => ?_
  obtain ⟨rfl, hs₂⟩ := h₂ (Decidable.not_not.1 hstat)
  -- the close of `conf->cast_sock`
  have hguar (held : List Sockfd) : pulling.guar ⟨held, false⟩ s₂ (.close s₂.conf.castSock) := by
    simp only [pulling, hs₂, if_true]
  have hnext (held : List Sockfd) (ok : Bool) : pulling.next ⟨held, false⟩ s₂ (.close s₂.conf.castSock) ok = ⟨held, true⟩ := if_pos hs₂
  refine sat_conf (sat_bind ⟨trivial, hguar _, fun ok _ => ?_⟩)
  rw [hnext]
  have hrest (stat : Status) : ((if stat ≠ .success then pure stat else do
      let stat ← pullPhases Γ garbage rounds startData
      if stat ≠ .success then return stat
      pullClosing : Prog Status) s₂).Sat pulling ⟨[s₂.conf.connSock, s₂.conf.cntlSock], true⟩ (fun _ _ _ => True) := by
    refine sat_ite (fun _ => trivial) fun _ => sat_bind ((sat_pullPhases Γ garbage rounds ⟨rfl, rfl⟩).mono ?_)
    intro v s₃ stat h₃
    refine sat_ite (fun _ => trivial) fun hstat => ?_
    obtain ⟨rfl, hs₃⟩ := h₃ (Decidable.not_not.1 hstat)
    exact sat_pullClosing hs₃ rfl
  exact sat_ite (fun _ => hrest _) (fun _ => hrest _)

/-! ## Both threads -/

/-- What the record says of the threads. -/
structure Tracks (v : Caster) (v' : Pulling) (log : List Entry) : Prop where
  opened : (∃ e ∈ log, e.OpensCast) ↔ v ≠ .idle
  ended : (∃ e ∈ log, e.EndsCast) ↔ v = .done
  quit : (∃ e ∈ log, e.QuitsCast) ↔ v'.quit = true

/-- What holds of the table as long as every call came in its turn. -/
structure Safe (v : Caster) (v' : Pulling) (t : Descriptors) (castSock : Sockfd) : Prop where
  cast : ∀ fd, t fd = some .cast ↔ v = .holds fd ∧ v'.quit = false
  shared : ∀ fd, v = .holds fd → castSock = fd
  order : v'.quit = true → v ≠ .idle
  nodup : v'.held.Nodup
  held : ∀ fd ∈ v'.held, ∃ h, t fd = some h ∧ h ≠ .cast ∧ ∀ f, h ≠ .file f

theorem set_self (t : Descriptors) (fd : Sockfd) (h : Option Handle) : t.set fd h fd = h := if_pos rfl

theorem set_of_ne {t : Descriptors} {fd x : Sockfd} {h : Option Handle} (hne : x ≠ fd) : t.set fd h x = t x := if_neg hne

section Safe

variable {v : Caster} {v' : Pulling} {t : Descriptors} {castSock fd : Sockfd} (hsafe : Safe v v' t castSock)
include hsafe

theorem Safe.held_ne (h : t fd = none ∨ t fd = some .cast) {x : Sockfd} (hx : x ∈ v'.held) : x ≠ fd := by
  rintro rfl
  obtain ⟨h', hh', hcast, -⟩ := hsafe.held x hx
  rw [hh'] at h
  rcases h with h | h
  · nomatch h
  · exact hcast (Option.some.inj h)

/-- A free descriptor becomes another's. -/
theorem Safe.opens {h : Handle} (hfree : t fd = none) (hh : h ≠ .cast) : Safe v v' (t.set fd (some h)) castSock where
  cast := by
    intro x
    by_cases hx : x = fd
    · subst hx
      rw [set_self, ← hsafe.cast, hfree]
      exact ⟨fun h' => absurd (Option.some.inj h') hh, nofun⟩
    · rw [set_of_ne hx]
      exact hsafe.cast x
  shared := hsafe.shared
  order := hsafe.order
  nodup := hsafe.nodup
  held := by
    intro x hx
    rw [set_of_ne (hsafe.held_ne (.inl hfree) hx)]
    exact hsafe.held x hx

/-- The receiver opens a socket. -/
theorem Safe.holds {h : Handle} (hfree : t fd = none) (hh : h ≠ .cast) (hf : ∀ f, h ≠ .file f) :
    Safe v { v' with held := fd :: v'.held } (t.set fd (some h)) castSock where
  cast := (hsafe.opens hfree hh).cast
  shared := hsafe.shared
  order := hsafe.order
  nodup := List.nodup_cons.2 ⟨fun hmem => hsafe.held_ne (.inl hfree) hmem rfl, hsafe.nodup⟩
  held := by
    rw [List.forall_mem_cons]
    exact ⟨⟨h, set_self t fd _, hh, hf⟩, (hsafe.opens hfree hh).held⟩

/-- A stream is closed. -/
theorem Safe.dropFile (f : FileId) : Safe v v' (t.dropFile f) castSock where
  cast := by
    intro x
    rw [← hsafe.cast]
    unfold Descriptors.dropFile
    split
    case isTrue h => exact ⟨nofun, fun h' => by rw [h] at h'; nomatch h'⟩
    case isFalse => rfl
  shared := hsafe.shared
  order := hsafe.order
  nodup := hsafe.nodup
  held := by
    intro x hx
    obtain ⟨h, hh, hcast, hfile⟩ := hsafe.held x hx
    refine ⟨h, ?_, hcast, hfile⟩
    unfold Descriptors.dropFile
    rw [if_neg (by rw [hh]; exact fun h' => hfile f (Option.some.inj h')), hh]

/-- The receiver closes a socket it has open. -/
theorem Safe.closes (hmem : fd ∈ v'.held) : Safe v { v' with held := v'.held.erase fd } (t.set fd none) castSock where
  cast := by
    intro x
    obtain ⟨h, hh, hcast, -⟩ := hsafe.held fd hmem
    by_cases hx : x = fd
    · subst hx
      rw [set_self, ← hsafe.cast, hh]
      exact ⟨nofun, fun h' => absurd (Option.some.inj h') hcast⟩
    · rw [set_of_ne hx]
      exact hsafe.cast x
  shared := hsafe.shared
  order := hsafe.order
  nodup := hsafe.nodup.erase fd
  held := by
    intro x hx
    obtain ⟨hne, hx⟩ := hsafe.nodup.mem_erase_iff.1 hx
    rw [set_of_ne hne]
    exact hsafe.held x hx

/-- The broadcast socket is closed. -/
theorem Safe.endsCast (hcast : t fd = some .cast) {u : Caster} {u' : Pulling} (hu : ∀ x, ¬(u = .holds x ∧ u'.quit = false))
    (hshared : ∀ x, u = .holds x → castSock = x) (horder : u'.quit = true → u ≠ .idle) (hheld : u'.held = v'.held) :
    Safe u u' (t.set fd none) castSock where
  cast := by
    intro x
    refine ⟨fun h => ?_, fun h => absurd h (hu x)⟩
    by_cases hx : x = fd
    · subst hx
      rw [set_self] at h
      nomatch h
    · rw [set_of_ne hx] at h
      have hsame := ((hsafe.cast x).1 h).1.symm.trans ((hsafe.cast fd).1 hcast).1
      exact absurd (Caster.holds.inj hsame) hx
  shared := hshared
  order := horder
  nodup := by
    rw [hheld]
    exact hsafe.nodup
  held := by
    rw [hheld]
    intro x hx
    rw [set_of_ne (hsafe.held_ne (.inr hcast) hx)]
    exact hsafe.held x hx

end Safe

/-- One more entry of a record. -/
theorem exists_concat {log : List Entry} {e : Entry} {p : Entry → Prop} : (∃ x ∈ log ++ [e], p x) ↔ (∃ x ∈ log, p x) ∨ p e := by
  simp only [List.mem_append, List.mem_singleton, or_and_right, exists_or, exists_eq_left]

section Left

variable {v : Caster} {v' : Pulling} {log : List Entry} {s : Proc} {c : Call} {r : c.Answer} {t : Descriptors}

theorem not_quits_left : ¬Entry.QuitsCast ⟨.left, ⟨s, c, r⟩, t⟩ := fun h => nomatch h.1

/-- What the turn of the broadcast asks. -/
theorem inTurn_left (htracks : Tracks v v' log) : Entry.InTurn log ⟨.left, ⟨s, c, r⟩, t⟩ ↔
    (Entry.UsesCast ⟨.left, ⟨s, c, r⟩, t⟩ → v'.quit = false) := by
  have hquit : (∀ b ∈ log, ¬b.QuitsCast) ↔ v'.quit = false := by
    rw [← Bool.not_eq_true, ← htracks.quit]
    simp
  unfold Entry.InTurn
  rw [hquit]
  exact ⟨fun h => h.2, fun h => ⟨fun hq => absurd hq not_quits_left, h⟩⟩

theorem tracks_left (htracks : Tracks v v' log) (hguar : caster.guar v s c) :
    Tracks (caster.next v s c r) v' (log ++ [⟨.left, ⟨s, c, r⟩, t⟩]) where
  opened := by
    rw [exists_concat, htracks.opened]
    cases c with
    | socket ty =>
      cases r with
      | none => simp [Entry.OpensCast, caster]
      | some fd => simp [Entry.OpensCast, caster]
    | close fd =>
      obtain rfl : v = .holds fd := hguar
      simp [caster]
    | _ => simp [Entry.OpensCast, caster]
  ended := by
    rw [exists_concat, htracks.ended]
    cases c with
    | socket ty =>
      obtain rfl : v = .idle := hguar
      cases r <;> simp [Entry.EndsCast, caster]
    | close fd => simp [Entry.EndsCast, caster]
    | _ => simp [Entry.EndsCast, caster]
  quit := by
    rw [exists_concat, htracks.quit]
    exact or_iff_left not_quits_left

theorem owned_left (htracks : Tracks v v' log) {castSock : Sockfd} (hsafe : Safe v v' t castSock) (hguar : caster.guar v s c) :
    Entry.Owned ⟨.left, ⟨s, c, r⟩, t⟩ ↔ Entry.InTurn log ⟨.left, ⟨s, c, r⟩, t⟩ := by
  rw [inTurn_left htracks]
  cases c with
  | send ty fd buf =>
    obtain rfl : v = .holds fd := hguar
    simp [Entry.Owned, Entry.UsesCast, hsafe.cast]
  | close fd =>
    obtain rfl : v = .holds fd := hguar
    simp [Entry.Owned, Entry.UsesCast, hsafe.cast]
  | _ => simp [Entry.Owned, Entry.UsesCast]

theorem safe_left (htracks : Tracks v v' log) {t' : Descriptors} {castSock : Sockfd} (hsafe : Safe v v' t castSock)
    (hguar : caster.guar v s c) (hstep : t.Step .left c r t') (hturn : Entry.InTurn log ⟨.left, ⟨s, c, r⟩, t⟩) :
    Safe (caster.next v s c r) v' t' (storesCast .left castSock c r) := by
  cases c with
  | socket ty =>
    cases r with
    | none =>
      obtain rfl : t' = t := hstep
      exact hsafe
    | some fd =>
      obtain ⟨hlow, rfl⟩ := hstep
      obtain rfl : v = .idle := hguar
      have hquit : v'.quit = false := Bool.not_eq_true _ ▸ fun h => hsafe.order h rfl
      refine ⟨fun x => ?_, fun x hx => Caster.holds.inj hx, fun h => nofun, hsafe.nodup, fun x hx => ?_⟩
      · by_cases hx : x = fd
        · subst hx
          rw [set_self]
          exact ⟨fun _ => ⟨rfl, hquit⟩, fun _ => rfl⟩
        · rw [set_of_ne hx, hsafe.cast]
          exact ⟨fun h => (nomatch h.1), fun h => absurd (Caster.holds.inj h.1).symm hx⟩
      · rw [set_of_ne (hsafe.held_ne (.inl hlow.2.1) hx)]
        exact hsafe.held x hx
  | close fd =>
    obtain ⟨-, rfl⟩ := hstep
    obtain rfl : v = .holds fd := hguar
    have hquit := (inTurn_left htracks).1 hturn ⟨rfl, .inr ⟨fd, rfl⟩⟩
    exact hsafe.endsCast ((hsafe.cast fd).2 ⟨rfl, hquit⟩) (fun x h => nomatch h.1) (fun x h => nomatch h) (fun _ => nofun) rfl
  | accept fd => exact hguar.elim
  | fopen path mode => exact hguar.elim
  | fclose f => exact hguar.elim
  | _ =>
    obtain rfl : t' = t := hstep
    exact hsafe

end Left

section Right

variable {v : Caster} {v' : Pulling} {log : List Entry} {s : Proc} {c : Call} {r : c.Answer} {t : Descriptors}

theorem not_uses_right : ¬Entry.UsesCast ⟨.right, ⟨s, c, r⟩, t⟩ := fun h => nomatch h.1

/-- What the turn of the receiver asks. -/
theorem inTurn_right (htracks : Tracks v v' log) : Entry.InTurn log ⟨.right, ⟨s, c, r⟩, t⟩ ↔
    (Entry.QuitsCast ⟨.right, ⟨s, c, r⟩, t⟩ → ∃ fd, v = .holds fd) := by
  have hholds : ((∃ b ∈ log, b.OpensCast) ∧ ∀ b ∈ log, ¬b.EndsCast) ↔ ∃ fd, v = .holds fd := by
    have hended : (∀ b ∈ log, ¬b.EndsCast) ↔ v ≠ .done := by
      rw [Ne, ← htracks.ended]
      simp
    rw [htracks.opened, hended]
    cases v <;> simp
  unfold Entry.InTurn
  rw [hholds]
  exact ⟨fun h => h.1, fun h => ⟨h, fun hu => absurd hu not_uses_right⟩⟩

theorem tracks_right (htracks : Tracks v v' log) : Tracks v (pulling.next v' s c r) (log ++ [⟨.right, ⟨s, c, r⟩, t⟩]) where
  opened := by
    rw [exists_concat, htracks.opened]
    exact or_iff_left fun h => nomatch h.1
  ended := by
    rw [exists_concat, htracks.ended]
    exact or_iff_left fun h => nomatch h.1
  quit := by
    rw [exists_concat, htracks.quit]
    cases c with
    | socket ty => cases r <;> simp [Entry.QuitsCast, ClosesCast, pulling]
    | accept fd => cases r <;> simp [Entry.QuitsCast, ClosesCast, pulling]
    | close fd => by_cases hphase : s.phase = .setup <;> simp [Entry.QuitsCast, ClosesCast, pulling, hphase]
    | _ => simp [Entry.QuitsCast, ClosesCast, pulling]

theorem owned_right (htracks : Tracks v v' log) {castSock : Sockfd} (hsafe : Safe v v' t castSock) (hguar : pulling.guar v' s c)
    (hcast : ClosesCast .right s c → c = .close castSock) :
    Entry.Owned ⟨.right, ⟨s, c, r⟩, t⟩ ↔ Entry.InTurn log ⟨.right, ⟨s, c, r⟩, t⟩ := by
  rw [inTurn_right htracks]
  cases c with
  | close fd =>
    by_cases hphase : s.phase = .setup
    · -- the number the receiver read is that of the broadcast socket as long as that is open
      obtain rfl : fd = castSock := Call.close.inj (hcast ⟨rfl, hphase, fd, rfl⟩)
      have hquit : v'.quit = false := by
        simpa [pulling, hphase] using hguar
      have hcloses : Entry.QuitsCast ⟨.right, ⟨s, .close fd, r⟩, t⟩ := ⟨rfl, hphase, fd, rfl⟩
      simp only [Entry.Owned, hphase, if_true, hcloses, true_imp_iff, hsafe.cast, hquit, and_true]
      refine ⟨fun h => ⟨fd, h⟩, ?_⟩
      rintro ⟨x, hx⟩
      rw [hx, hsafe.shared x hx]
    · have hmem : fd ∈ v'.held := by
        simpa [pulling, hphase] using hguar
      obtain ⟨h, hh, -⟩ := hsafe.held fd hmem
      simp [Entry.Owned, Entry.QuitsCast, ClosesCast, hphase, hh]
  | _ => simp [Entry.Owned, Entry.QuitsCast, ClosesCast]

theorem safe_right (htracks : Tracks v v' log) {t' : Descriptors} {castSock : Sockfd} (hsafe : Safe v v' t castSock)
    (hguar : pulling.guar v' s c) (hcast : ClosesCast .right s c → c = .close castSock) (hstep : t.Step .right c r t')
    (hturn : Entry.InTurn log ⟨.right, ⟨s, c, r⟩, t⟩) : Safe v (pulling.next v' s c r) t' (storesCast .right castSock c r) := by
  cases c with
  | socket ty =>
    cases r with
    | none =>
      obtain rfl : t' = t := hstep
      exact hsafe
    | some fd =>
      obtain ⟨hlow, rfl⟩ := hstep
      cases ty <;> exact hsafe.holds hlow.2.1 nofun (fun _ => nofun)
  | accept fd =>
    cases r with
    | none =>
      obtain rfl : t' = t := hstep
      exact hsafe
    | some conn =>
      obtain ⟨hlow, rfl⟩ := hstep
      exact hsafe.holds hlow.2.1 nofun (fun _ => nofun)
  | fopen path mode =>
    cases r with
    | none =>
      obtain rfl : t' = t := hstep
      exact hsafe
    | some f =>
      obtain ⟨-, fd, hlow, rfl⟩ := hstep
      exact hsafe.opens hlow.2.1 nofun
  | fclose f =>
    obtain rfl : t' = t.dropFile f := hstep
    exact hsafe.dropFile f
  | close fd =>
    obtain ⟨-, rfl⟩ := hstep
    by_cases hphase : s.phase = .setup
    · obtain rfl : fd = castSock := Call.close.inj (hcast ⟨rfl, hphase, fd, rfl⟩)
      have hquit : v'.quit = false := by
        simpa [pulling, hphase] using hguar
      obtain ⟨x, hx⟩ := (inTurn_right htracks).1 hturn ⟨rfl, hphase, fd, rfl⟩
      obtain rfl := hsafe.shared x hx
      have hnext : pulling.next v' s (.close fd) r = { v' with quit := true } := if_pos hphase
      rw [hnext]
      refine hsafe.endsCast ((hsafe.cast fd).2 ⟨hx, hquit⟩) (fun _ h => nomatch h.2) hsafe.shared (fun _ h => ?_) rfl
      rw [hx] at h
      nomatch h
    · have hmem : fd ∈ v'.held := by
        simpa [pulling, hphase] using hguar
      have hnext : pulling.next v' s (.close fd) r = { v' with held := v'.held.erase fd } := if_neg hphase
      rw [hnext]
      exact hsafe.closes hmem
  | _ =>
    obtain rfl : t' = t := hstep
    exact hsafe

end Right

/-- The joint state of the threads. -/
def Joined (v : Caster) (v' : Pulling) (w : World) : Prop :=
  Tracks v v' w.log ∧ ((∀ e ∈ w.log, e.Owned) ↔ InTurn w.log) ∧ (InTurn w.log → Safe v v' w.table w.castSock)

theorem joined_concat {v u : Caster} {v' u' : Pulling} {w w' : World} {e : Entry} (h : Joined v v' w) (hlog : w'.log = w.log ++ [e])
    (htracks : Tracks u u' (w.log ++ [e])) (howned : Safe v v' w.table w.castSock → (e.Owned ↔ e.InTurn w.log))
    (hsafe : Safe v v' w.table w.castSock → e.InTurn w.log → Safe u u' w'.table w'.castSock) : Joined u u' w' := by
  obtain ⟨-, hiff, hsafe₀⟩ := h
  unfold Joined
  rw [hlog, inTurn_concat, List.forall_mem_append, List.forall_mem_singleton, hiff]
  refine ⟨htracks, and_congr_right fun hturn => howned (hsafe₀ hturn), ?_⟩
  rintro ⟨hturn, he⟩
  exact hsafe (hsafe₀ hturn) he

theorem joint_pullFile (Γ : Libcrc) (garbage : SendArgs) (b : CastConfig) (rounds : Nat) (c : InitConfig) (castSock : Sockfd)
    (isOpen : Sockfd → Bool) : (pullFile Γ garbage b rounds c castSock isOpen).Joint caster pulling (fun _ _ _ => True)
      (fun _ _ _ => True) Joined := by
  refine ⟨.idle, ⟨[], false⟩, ⟨?_, ?_, fun _ => ?_⟩, sat_startBroadcast b rounds _, sat_startPuller Γ garbage rounds rfl⟩
  · exact ⟨by simp [pullFile], by simp [pullFile], by simp [pullFile]⟩
  · exact ⟨fun _ => inTurn_nil, fun _ => List.forall_mem_nil _⟩
  · refine ⟨fun fd => ?_, nofun, nofun, List.nodup_nil, nofun⟩
    refine ⟨fun h => ?_, fun h => nomatch h.1⟩
    simp only [pullFile] at h
    split at h <;> nomatch h

/-- Every step of the threads keeps their joint state. -/
theorem joined_reaches {Γ : Libcrc} {garbage : SendArgs} {b : CastConfig} {rounds : Nat} {c : InitConfig} {castSock : Sockfd}
    {isOpen : Sockfd → Bool} {q : Pair Proc Call.Answer Status World}
    (h : Pair.Reaches threads (pullFile Γ garbage b rounds c castSock isOpen) q) :
    q.Joint caster pulling (fun _ _ _ => True) (fun _ _ _ => True) Joined := by
  refine (joint_pullFile Γ garbage b rounds c castSock isOpen).reaches ?_ ?_ h
  · rintro v v' w _ s e r w' hJ - hguar ⟨-, hstep, hcast, hlog⟩
    refine ⟨trivial, joined_concat hJ hlog (tracks_left hJ.1 hguar) (fun hsafe => owned_left hJ.1 hsafe hguar) ?_⟩
    intro hsafe hturn
    rw [hcast]
    exact safe_left hJ.1 hsafe hguar hstep hturn
  · rintro v v' w _ s e r w' hJ - hguar ⟨hread, hstep, hcast, hlog⟩
    refine ⟨trivial, joined_concat hJ hlog (tracks_right hJ.1) (fun hsafe => owned_right hJ.1 hsafe hguar hread) ?_⟩
    intro hsafe hturn
    rw [hcast]
    exact safe_right hJ.1 hsafe hguar hread hstep hturn

end DescriptorsAux

open DescriptorsAux in
/-- In every run of the two threads, whatever the order of their calls, the calls act on what their thread means them to act on exactly
when the receiver closes `conf->cast_sock` while the broadcast has its socket open and the broadcast makes no send or close after
that. -/
theorem pullFile_owned_iff {Γ : Libcrc} {garbage : SendArgs} {b : CastConfig} {rounds : Nat} {c : InitConfig} {castSock : Sockfd}
    {isOpen : Sockfd → Bool} {q : Pair Proc Call.Answer Status World}
    (h : Pair.Reaches threads (pullFile Γ garbage b rounds c castSock isOpen) q) :
    (∀ e ∈ q.med.log, e.Owned) ↔ InTurn q.med.log := by
  obtain ⟨v, v', hJ, -⟩ := joined_reaches h
  exact hJ.2.1

/-! ## A run of both threads -/

namespace Sample

/-- The lowest free of the first descriptors. -/
def lowest (t : Descriptors) : Sockfd := (((List.range 16).find? (fun n : Nat => t n = none)).getD 16 : Nat)

/-- The system's answers: calls on what is open succeed. -/
def answer (w : World) : (c : Call) → c.Answer
  | .socket _ => some (lowest w.table)
  | .accept _ => some { fd := lowest w.table, inet := true, ip := { a := 1, b := 1, c := 1, d := 1 }, port := 1 }
  | .close fd => (w.table fd).isSome
  | .send _ fd buf => if w.table fd = none then none else some buf.length
  | c => (env [] default c).1

def tableAfter (side : Side) (t : Descriptors) : Call → Descriptors
  | .socket ty => t.set (lowest t) (some (opensSocket side ty))
  | .accept _ => t.set (lowest t) (some .conn)
  | .close fd => t.set fd none
  | _ => t

def system (side : Side) (w : World) (s : Proc) (c : Call) : c.Answer × World :=
  (answer w c, { table := tableAfter side w.table c, castSock := storesCast side w.castSock c (answer w c),
                 log := w.log ++ [⟨side, ⟨s, c, answer w c⟩, w.table⟩] })

/-- The calls this system answers. -/
def answers (side : Side) (w : World) (s : Proc) : Call → Bool
  | .socket _ | .accept _ => w.table.Lowest (lowest w.table)
  | .close fd => if side = .right ∧ s.phase = .setup then fd = w.castSock else true
  | .fopen _ _ | .fclose _ => false
  | _ => true

theorem system_threads (side : Side) (b : Option Call) (w : World) (s : Proc) (c : Call) (h : answers side w s c = true) :
    threads side b w s c (system side w s c).1 (system side w s c).2 := by
  refine ⟨?_, ?_, rfl, rfl⟩
  · rintro ⟨rfl, hphase, fd, rfl⟩
    simpa [answers, hphase] using h
  · cases c with
    | socket ty => exact ⟨by simpa [answers] using h, rfl⟩
    | accept fd => exact ⟨by simpa [answers] using h, rfl⟩
    | close fd => exact ⟨fun hnone => by simp [system, answer, hnone], rfl⟩
    | fopen path mode => nomatch h
    | fclose f => nomatch h
    | _ => rfl

/-- The two threads in a process with three descriptors open. The receiver will read `3` from `conf->cast_sock`. -/
def pulls : Pair Proc Call.Answer Status World :=
  pullFile zero blank { bcTrycount := 1, bctCast := 1 } 1 receiver 3 (fun fd => fd = 0 || fd = 1 || fd = 2)

/-- The broadcast opens its socket; the receiver accepts a connection and closes that socket. -/
def accepting : List Side := List.replicate 5 .left ++ List.replicate 7 .right

/-- Then the broadcast sends once more. -/
def sending : List Side := accepting ++ List.replicate 3 .left

end Sample

/-- Up to there every call is in its turn and acts on what it should. -/
theorem pullFile_owned_accepting : ∃ q, Pair.Reaches threads Sample.pulls q ∧ (∀ e ∈ q.med.log, e.Owned) ∧ InTurn q.med.log := by
  have hfollow : ((Sample.pulls.follow Sample.system Sample.answers Sample.accepting).map
      (fun q => decide (∀ e ∈ q.med.log, e.Owned))) = some true := by
    decide +kernel
  obtain ⟨q, hq, howned⟩ := Option.map_eq_some_iff.1 hfollow
  have hreach : Pair.Reaches threads Sample.pulls q := Pair.reaches_follow Sample.system_threads hq
  exact ⟨q, hreach, of_decide_eq_true howned, (pullFile_owned_iff hreach).1 (of_decide_eq_true howned)⟩

/-- After the receiver has closed the broadcast socket the broadcast sends on its number. -/
theorem pullFile_not_owned : ∃ q, Pair.Reaches threads Sample.pulls q ∧ ¬∀ e ∈ q.med.log, e.Owned := by
  have hfollow : ((Sample.pulls.follow Sample.system Sample.answers Sample.sending).map
      (fun q => decide (∀ e ∈ q.med.log, e.Owned))) = some false := by
    decide +kernel
  obtain ⟨q, hq, howned⟩ := Option.map_eq_some_iff.1 hfollow
  exact ⟨q, Pair.reaches_follow Sample.system_threads hq, of_decide_eq_false howned⟩

end RufShare
