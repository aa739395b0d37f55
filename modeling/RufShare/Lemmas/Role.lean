import RufShare.Resumption.Monitor
import RufShare.Lemmas.Within

/-!
# Roles

A role says what a party of a transfer does from one call to the next, without its program: what it may push on the control
channel and how much it reads there, what datagrams it emits and how many bytes of one it takes, and how its view of the transfer
moves with each of them. A role is a monitor (`Role.monitor`); the functions that every header goes through keep their side of
every role.
-/

namespace RufShare

open Resumption

/-- A role with views in `V`. A view is `free` when nothing more is asked of the program, and not `live` when a call has failed
after which the program makes no other. -/
structure Role (V : Type) where
  free : V → Bool
  live : V → Bool
  fail : V → V
  hold : V → Proc → Prop
  sends : V → Proc → Bytes → Prop
  sent : V → Proc → Bytes → V
  expects : V → PacketType
  reads : V → Nat → Prop
  got : V → Bytes → V
  emits : V → Proc → Bytes → Prop
  emitted : V → Bytes → V
  collects : V → Proc → Nat → Prop
  collected : V → Proc → Bytes → V
  allows : V → Proc → Call → Prop
  relies : V → Proc → (c : Call) → c.Answer → Prop
  after : V → Proc → (c : Call) → c.Answer → V

variable {V : Type}

/-- What the role owes at a call. -/
def Role.guar (P : Role V) (v : V) (s : Proc) : Call → Prop
  | .send .stream _ buf => P.sends v s buf
  | .send .dgram _ buf => P.emits v s buf
  | .recv .stream _ size false => P.reads v size
  | .recv .stream _ size true => size = 1 ∧ P.reads v (P.expects v).size
  | .recv .dgram _ size _ => P.collects v s size
  | .poll .stream _ .pollin _ => ∃ size, P.reads v size
  | .poll .dgram _ .pollin _ => ∃ size, P.collects v s size
  | .poll _ _ .pollout _ | .malloc _ | .calloc _ _ => True
  | c => P.allows v s c

/-- The view after a call. -/
def Role.next (P : Role V) (v : V) (s : Proc) : (c : Call) → c.Answer → V
  | .send .stream _ buf, r => if r.elim False (fun n => buf.length ≤ n) then P.sent v s buf else P.fail v
  | .send .dgram _ buf, r => if r.elim False (fun n => buf.length ≤ n) then P.emitted v buf else P.fail v
  | .recv .stream _ size false, r => r.elim (P.fail v) (fun b => if size ≤ b.1.length then P.got v b.1 else P.fail v)
  | .recv .stream _ size true, r =>
    r.elim (P.fail v) (fun b => if size ≤ b.1.length ∧ (P.expects v).code = byteAt b.1 0 then v else P.fail v)
  | .recv .dgram _ size _, r => r.elim (P.fail v) (fun b => if size ≤ b.1.length then P.collected v s b.1 else P.fail v)
  | .poll _ _ _ _, r => if r = .ready true then v else P.fail v
  | .malloc _, r | .calloc _ _, r => if r = true then v else P.fail v
  | c, r => P.after v s c r

/-- The role as a monitor. -/
def Role.monitor (P : Role V) : Monitor Proc Call.Answer V where
  hold v s := P.free v = false → P.hold v s
  guar v s c := P.free v = false → P.live v = true ∧ P.guar v s c
  rely v s c r := P.free v = false → P.relies v s c r
  next v s c r := if P.free v then v else P.next v s c r

/-- What a call can make of a view. -/
theorem Role.next_cases (P : Role V) {p : V → Prop} {v : V} {s : Proc} (c : Call) (r : c.Answer) (hstay : p v)
    (hfail : p (P.fail v)) (hsent : ∀ fd buf, c = .send .stream fd buf → p (P.sent v s buf))
    (hemitted : ∀ fd buf, c = .send .dgram fd buf → p (P.emitted v buf))
    (hgot : ∀ fd size b, c = .recv .stream fd size false → b.length = size → p (P.got v b))
    (hcollected : ∀ fd size peek b, c = .recv .dgram fd size peek → b.length = size → p (P.collected v s b))
    (hafter : p (P.after v s c r)) : p (P.next v s c r) := by
  -- a call answered by bytes moves the view only if they are enough
  have hbytes {size : Nat} (r : Option { b : Bytes // b.length ≤ size }) (q : Bytes → Prop) [DecidablePred q] (f : Bytes → V)
      (hf : ∀ b : Bytes, b.length = size → p (f b)) (hq : ∀ b, q b → size ≤ b.length) :
      p (r.elim (P.fail v) (fun b => if q b.1 then f b.1 else P.fail v)) := by
    cases r with
    | none => exact hfail
    | some b =>
      dsimp only [Option.elim]
      split
      case isTrue h => exact hf b.1 (Nat.le_antisymm b.2 (hq b.1 h))
      case isFalse => exact hfail
  have hite (q : Prop) [Decidable q] (v' : V) (h : p v') : p (if q then v' else P.fail v) := by
    split
    · exact h
    · exact hfail
  cases c with
  | send ty fd buf =>
    cases ty with
    | stream => exact hite _ _ (hsent fd buf rfl)
    | dgram => exact hite _ _ (hemitted fd buf rfl)
  | recv ty fd size peek =>
    cases ty with
    | stream =>
      cases peek with
      | false => exact hbytes r (fun b => size ≤ b.length) _ (fun b hb => hgot fd size b rfl hb) (fun _ h => h)
      | true =>
        exact hbytes r (fun b => size ≤ b.length ∧ (P.expects v).code = byteAt b 0) (fun _ => v) (fun _ _ => hstay) (fun _ h => h.1)
    | dgram => exact hbytes r (fun b => size ≤ b.length) _ (fun b hb => hcollected fd size peek b rfl hb) (fun _ h => h)
  | poll ty fd event timeout => exact hite _ _ hstay
  | malloc size => exact hite _ _ hstay
  | calloc nmemb size => exact hite _ _ hstay
  | _ => exact hafter

section Rules

variable {α β : Type} {M : Monitor Proc Call.Answer V} {v : V} {s : Proc} {Q : V → Proc → β → Prop}

theorem sat_bind {x : Prog α} {f : α → Prog β} (h : (x s).Sat M v (fun v s a => (f a s).Sat M v Q)) :
    ((x >>= f) s).Sat M v Q := Tree.sat_bind.2 h

theorem sat_conf {f : InitConfig → Prog β} (h : (f s.conf s).Sat M v Q) : ((conf >>= f) s).Sat M v Q := h

theorem sat_setConf {g : InitConfig → InitConfig} {f : Unit → Prog β} (h : (f () { s with conf := g s.conf }).Sat M v Q) :
    ((setConf g >>= f) s).Sat M v Q := h

theorem sat_enter {p : Phase} {f : Unit → Prog β} (h : (f () { s with phase := p }).Sat M v Q) :
    ((enter p >>= f) s).Sat M v Q := h

theorem sat_pure {b : β} (h : Q v s b) : ((pure b : Prog β) s).Sat M v Q := h

theorem sat_ite {c : Prop} [Decidable c] {x y : Prog β} (hx : c → (x s).Sat M v Q) (hy : ¬c → (y s).Sat M v Q) :
    ((if c then x else y) s).Sat M v Q := by
  by_cases hc : c
  · rw [if_pos hc]
    exact hx hc
  · rw [if_neg hc]
    exact hy hc

end Rules

/-- The program is at a call in the view `v`. -/
structure Role.At (P : Role V) (v : V) (s : Proc) : Prop where
  bound : P.free v = false
  live : P.live v = true
  hold : P.hold v s

section Calls

variable {α β : Type} {P : Role V} {v : V} {s : Proc} {Q : V → Proc → β → Prop}

/-- Where the role asks for nothing, everything keeps it. -/
theorem sat_free (hfree : P.free v = true) (hQ : ∀ s b, Q v s b) (t : Tree β) : t.Sat P.monitor v Q := by
  induction t with
  | ret s b => exact hQ s b
  | cut s => exact fun h => absurd (hfree.symm.trans h) (by decide)
  | call s c k ih =>
    refine ⟨fun h => absurd (hfree.symm.trans h) (by decide), fun h => absurd (hfree.symm.trans h) (by decide), fun r _ => ?_⟩
    have hnext : P.monitor.next v s c r = v := if_pos hfree
    rw [hnext]
    exact ih r

theorem sat_call {c : Call} {f : c.Answer → Prog β} (h : P.At v s) (hg : P.guar v s c)
    (hk : ∀ r, P.relies v s c r → (f r s).Sat P.monitor (P.next v s c r) Q) : ((syscall c >>= f) s).Sat P.monitor v Q := by
  refine ⟨fun _ => h.hold, fun _ => ⟨h.live, hg⟩, fun r hr => ?_⟩
  have hnext : P.monitor.next v s c r = P.next v s c r := if_neg (by rw [h.bound]; decide)
  rw [hnext]
  exact hk r (hr h.bound)

/-- A call at the end of a program. -/
theorem sat_last {c : Call} {Q : V → Proc → c.Answer → Prop} (h : P.At v s) (hg : P.guar v s c)
    (hk : ∀ r, P.relies v s c r → Q (P.next v s c r) s r) : (syscall c s).Sat P.monitor v Q := by
  have : syscall c = (syscall c >>= fun r => (pure r : Prog c.Answer)) := (bind_pure _).symm
  rw [this]
  exact sat_call h hg hk

theorem sat_malloc {size : Nat} {f : Bool → Prog β} (h : P.At v s) (hok : (f true s).Sat P.monitor v Q)
    (hfail : (f false s).Sat P.monitor (P.fail v) Q) : ((syscall (.malloc size) >>= f) s).Sat P.monitor v Q := by
  refine sat_call h trivial fun r _ => ?_
  cases r with
  | true => exact hok
  | false => exact hfail

theorem sat_calloc {nmemb size : Nat} {f : Bool → Prog β} (h : P.At v s) (hok : (f true s).Sat P.monitor v Q)
    (hfail : (f false s).Sat P.monitor (P.fail v) Q) : ((syscall (.calloc nmemb size) >>= f) s).Sat P.monitor v Q := by
  refine sat_call h trivial fun r _ => ?_
  cases r with
  | true => exact hok
  | false => exact hfail

theorem sat_poll {ty : SockType} {sock : Sockfd} {event : PollEvent} {timeout : Int} {f : PollResult → Prog β} (h : P.At v s)
    (hg : P.guar v s (.poll ty sock event timeout)) (hok : (f (.ready true) s).Sat P.monitor v Q)
    (hfail : ∀ r, r ≠ .ready true → (f r s).Sat P.monitor (P.fail v) Q) :
    ((syscall (.poll ty sock event timeout) >>= f) s).Sat P.monitor v Q := by
  refine sat_call h hg fun r _ => ?_
  by_cases hr : r = .ready true
  · have hnext : P.next v s (.poll ty sock event timeout) r = v := if_pos hr
    rw [hnext, hr]
    exact hok
  · have hnext : P.next v s (.poll ty sock event timeout) r = P.fail v := if_neg hr
    rw [hnext]
    exact hfail r hr

/-- A header that may be pushed is pushed, or a call fails. -/
theorem sat_pushHeader {Q : V → Proc → Status → Prop} {sock : Sockfd} {buf : Bytes} {timeout : Int} (h : P.At v s)
    (hsend : P.sends v s buf) (hok : Q (P.sent v s buf) s .success) (hfail : ∀ stat, stat ≠ .success → Q (P.fail v) s stat) :
    (pushHeader sock buf timeout s).Sat P.monitor v Q := by
  unfold pushHeader
  refine sat_malloc h (sat_ite nofun fun _ => ?_) (sat_ite (fun _ => hfail _ nofun) nofun)
  refine sat_poll h trivial (sat_ite (fun _ => ?_) (fun h => absurd rfl h)) fun r hr => ?_
  · unfold pushTcpData
    refine sat_call h hsend fun sent _ => ?_
    cases sent with
    | none => exact hfail _ nofun
    | some n =>
      refine sat_ite (fun hn => ?_) (fun hn => ?_)
      · have hnext : P.next v s (.send .stream sock buf) (some n) = P.fail v := if_neg (Nat.not_le.2 hn)
        rw [hnext]
        exact hfail _ nofun
      · have hnext : P.next v s (.send .stream sock buf) (some n) = P.sent v s buf := if_pos (Nat.le_of_not_lt hn)
        rw [hnext]
        exact hok
  · cases r with
    | error => exact hfail _ nofun
    | timeout => exact hfail _ nofun
    | ready hit => exact sat_ite (fun hhit => absurd (congrArg PollResult.ready hhit) hr) (fun _ => hfail _ nofun)

/-- A read that may be made is made whole, or fails. -/
theorem sat_pullTcpData {Q : V → Proc → Status × Bytes → Prop} {sock : Sockfd} {size : Nat} (h : P.At v s)
    (hread : P.reads v size) (hok : ∀ b, b.length = size → Q (P.got v b) s (.success, b))
    (hfail : ∀ stat b, stat ≠ .success → Q (P.fail v) s (stat, b)) :
    (pullTcpData sock size false s).Sat P.monitor v Q := by
  unfold pullTcpData
  refine sat_call h hread fun received _ => ?_
  cases received with
  | none => exact hfail _ _ nofun
  | some b =>
    refine sat_ite (fun hb => ?_) (fun hb => ?_)
    · have hnext : P.next v s (.recv .stream sock size false) (some b) = P.fail v := if_neg (Nat.not_le.2 hb)
      rw [hnext]
      exact hfail _ _ nofun
    · have hnext : P.next v s (.recv .stream sock size false) (some b) = P.got v b.1 := if_pos (Nat.le_of_not_lt hb)
      rw [hnext]
      exact hok b.1 (Nat.le_antisymm b.2 (Nat.le_of_not_lt hb))

/-- The type the role expects is seen, or a call fails or shows another type. -/
theorem sat_pullType {Q : V → Proc → Status → Prop} {sock : Sockfd} {type : PacketType} {timeout : Int}
    (h : P.At v s) (htype : P.expects v = type) (hread : P.reads v type.size) (hok : Q v s .success)
    (hfail : ∀ stat, stat ≠ .success → Q (P.fail v) s stat) : (pullType sock type timeout s).Sat P.monitor v Q := by
  unfold pullType
  refine sat_poll h ⟨_, hread⟩ (sat_ite nofun fun _ => sat_bind ?_) fun r hr => ?_
  · unfold pullTcpData
    refine sat_call h ⟨rfl, htype.symm ▸ hread⟩ fun received _ => ?_
    cases received with
    | none => exact sat_ite (fun _ => hfail _ nofun) (fun h => absurd nofun h)
    | some b =>
      refine sat_ite (fun hb => ?_) (fun hb => sat_pure (sat_ite (fun h => absurd rfl h) fun _ => ?_))
      · have hnext : P.next v s (.recv .stream sock 1 true) (some b) = P.fail v := if_neg (fun h => Nat.not_le.2 hb h.1)
        rw [hnext]
        exact sat_ite (fun _ => hfail _ nofun) (fun h => absurd nofun h)
      · refine sat_ite (fun hne => ?_) (fun heq => ?_)
        · have hnext : P.next v s (.recv .stream sock 1 true) (some b) = P.fail v := by
            refine if_neg (fun h => hne ?_)
            rw [← htype]
            exact h.2
          rw [hnext]
          exact hfail _ nofun
        · have hnext : P.next v s (.recv .stream sock 1 true) (some b) = v := by
            refine if_pos ⟨Nat.le_of_not_lt hb, ?_⟩
            rw [htype]
            exact Decidable.not_not.1 heq
          rw [hnext]
          exact hok
  · cases r with
    | error => exact hfail _ nofun
    | timeout => exact hfail _ nofun
    | ready hit =>
      cases hit with
      | true => exact absurd rfl hr
      | false => exact sat_ite (fun _ => hfail _ nofun) (fun h => absurd rfl h)

/-- A packet of the type the role expects is read, or a call fails or shows another type. -/
theorem sat_pullPacket {Q : V → Proc → Status × Bytes → Prop} {sock : Sockfd} {type : PacketType} {timeout : Int} (h : P.At v s)
    (htype : P.expects v = type) (hread : P.reads v type.size) (hok : ∀ b, b.length = type.size → Q (P.got v b) s (.success, b))
    (hfail : ∀ stat b, stat ≠ .success → Q (P.fail v) s (stat, b)) :
    (pullPacket sock type timeout s).Sat P.monitor v Q := by
  unfold pullPacket
  refine sat_bind (sat_pullType h htype hread ?_ fun stat hstat => ?_)
  · exact sat_ite (fun h => absurd rfl h) (fun _ => sat_pullTcpData h hread hok hfail)
  · exact sat_ite (fun _ => hfail stat _ hstat) (fun h => absurd hstat h)

/-- The calls that open a socket. -/
def Call.Opening : Call → Prop
  | .socket _ | .setsockopt _ _ | .bind _ _ _ | .connect _ _ _ => True
  | _ => False

/-- A datagram socket is opened, or an address is not one, or a call fails. -/
theorem sat_openUdpSocket {Q : V → Proc → Status × Sockfd → Prop} {sock : Sockfd} {srcIp dstIp : Bytes} {srcPort dstPort : UInt16}
    (h : P.At v s) (hguar : ∀ c : Call, c.Opening → P.guar v s c)
    (hnext : ∀ (c : Call) (r : c.Answer), c.Opening → P.next v s c r = if c.Succeeds r then v else P.fail v)
    (hok : ∀ sock, Q v s (.success, sock))
    (hrefused : ∀ stat, stat ≠ .success → inetPton srcIp = none ∨ inetPton dstIp = none → Q v s (stat, sock))
    (hfail : ∀ stat sock, stat ≠ .success → Q (P.fail v) s (stat, sock)) :
    (initUdpSocket sock srcIp srcPort dstIp dstPort false s).Sat P.monitor v Q := by
  -- each call of the function ends it or leaves the view
  have hstep {β : Type} {R : V → Proc → β → Prop} {c : Call} {f : c.Answer → Prog β} (hc : c.Opening)
      (hgo : ∀ r, c.Succeeds r → (f r s).Sat P.monitor v R) (hstop : ∀ r, ¬c.Succeeds r → (f r s).Sat P.monitor (P.fail v) R) :
      ((syscall c >>= f) s).Sat P.monitor v R := by
    refine sat_call h (hguar c hc) fun r _ => ?_
    rw [hnext c r hc]
    by_cases hr : c.Succeeds r
    · rw [if_pos hr]
      exact hgo r hr
    · rw [if_neg hr]
      exact hstop r hr
  unfold initUdpSocket
  cases hsrc : inetPton srcIp with
  | none => exact hrefused _ Status.noConfusion (.inl hsrc)
  | some src =>
    cases hdst : inetPton dstIp with
    | none => exact hrefused _ Status.noConfusion (.inr hdst)
    | some dst =>
      refine hstep trivial (fun opened hopened => ?_) (fun opened hopened => ?_)
      · obtain ⟨fd, rfl⟩ := Option.isSome_iff_exists.1 hopened
        refine sat_bind (sat_ite Bool.noConfusion fun _ => sat_pure (sat_ite Bool.noConfusion fun _ => ?_))
        refine hstep trivial (fun ok hset => ?_) (fun ok hset => ?_)
        · obtain rfl : ok = true := hset
          refine sat_ite Bool.noConfusion fun _ => hstep trivial (fun ok hbind => ?_) (fun ok hbind => ?_)
          · obtain rfl : ok = true := hbind
            refine sat_ite Bool.noConfusion fun _ => hstep trivial (fun ok hconn => ?_) (fun ok hconn => ?_)
            · obtain rfl : ok = true := hconn
              exact sat_ite Bool.noConfusion fun _ => hok fd
            · obtain rfl : ok = false := Bool.eq_false_iff.2 hconn
              exact sat_ite (fun _ => hfail _ fd Status.noConfusion) (fun hne => absurd rfl hne)
          · obtain rfl : ok = false := Bool.eq_false_iff.2 hbind
            exact sat_ite (fun _ => hfail _ fd Status.noConfusion) (fun hne => absurd rfl hne)
        · obtain rfl : ok = false := Bool.eq_false_iff.2 hset
          exact sat_ite (fun _ => hfail _ fd Status.noConfusion) (fun hne => absurd rfl hne)
      · obtain rfl : opened = none := Option.not_isSome_iff_eq_none.1 hopened
        exact hfail _ sock Status.noConfusion

end Calls

end RufShare
