import RufShare.Lemmas.Within
import RufShare.Scanpair

/-!
# What a decoded header depends on

`unpack_from_infostring` stores the conversions of `sscanf` one by one and does not look at how many there were. A header is decoded
from its bytes alone exactly when all four match; otherwise what was in `*args` before is left in the fields that were not stored.
-/

namespace RufShare

open Resumption

/-- The four conversions of an infostring, when all of them match: file name, name, address and port. -/
def scanInfostring (infostr : Bytes) : Option (Bytes × Bytes × Bytes × UInt16) := do
  let (filename, input) ← scanSet 255 58 (infostr.takeWhile (· ≠ 0))
  let (name, input) ← (scanLit 58 input).bind (scanSet 31 64)
  let (ip, input) ← (scanLit 64 input).bind (scanSet 15 58)
  let port ← (scanLit 58 input).bind scanHu
  return (filename, name, ip, port)

/-- The fields that are decoded from an infostring. -/
def CntlAddrs.decoded (info : CntlAddrs) : Bytes × Bytes × Bytes × UInt16 := (info.filename, info.name, info.remoteIp, info.remotePort)

/-- What is decoded of a CAST header. -/
def CastArgs.decoded (args : CastArgs) : CastPacket × Bytes × Bytes × Bytes × UInt16 := (args.packet, args.info.decoded)

/-- What is decoded of a SEND header. -/
def SendArgs.decoded (args : SendArgs) : SendPacket × Bytes × Bytes × Bytes × UInt16 := (args.packet, args.info.decoded)

/-- What a call has received. -/
def receivedBytes : Event → Option Bytes
  | ⟨_, .recv _ _ _ _, r⟩ => r.map (·.1)
  | _ => none

/-- What the last `recv` of a run has received. -/
def lastReceived (tr : List Event) : Bytes := ((tr.filterMap receivedBytes).getLast?).getD []

/-- In runs whose calls are those of `tr`, with the same answers, the header that is accepted is decoded alike whatever `*args` held. -/
def DependsOnWire {A D : Type} (decoded : A → D) (pull : A → Prog (Status × A)) (s : Proc) (tr : List Event) : Prop :=
  ∀ args args' s₁ s₂ a a', Run (pull args s) tr s₁ (.success, a) → Run (pull args' s) tr s₂ (.success, a') → decoded a = decoded a'

namespace DecodedAux

/-- When all conversions match, what is decoded is what they gave. -/
theorem decoded_unpack {infostr : Bytes} {fields : Bytes × Bytes × Bytes × UInt16} (h : scanInfostring infostr = some fields)
    (info : CntlAddrs) : (unpackFromInfostring infostr info).decoded = fields := by
  obtain ⟨⟨filename, input⟩, h₁, h⟩ := Option.bind_eq_some_iff.1 h
  obtain ⟨⟨name, input'⟩, h₂, h⟩ := Option.bind_eq_some_iff.1 h
  obtain ⟨⟨ip, input''⟩, h₃, h⟩ := Option.bind_eq_some_iff.1 h
  obtain ⟨port, h₄, h⟩ := Option.bind_eq_some_iff.1 h
  obtain rfl := Option.some.inj h
  simp only [unpackFromInfostring, h₁, h₂, h₃, h₄, CntlAddrs.decoded]

/-- When one does not match, the port is not stored. -/
theorem remotePort_unpack {infostr : Bytes} (h : scanInfostring infostr = none) (info : CntlAddrs) :
    (unpackFromInfostring infostr info).remotePort = info.remotePort := by
  unfold unpackFromInfostring
  dsimp only
  split
  · rfl
  · rename_i filename input h₁
    split
    · rfl
    · rename_i name input' h₂
      split
      · rfl
      · rename_i ip input'' h₃
        split
        · rfl
        · rename_i port h₄
          simp only [scanInfostring, h₁, h₂, h₃, h₄, Option.bind_eq_bind, Option.bind_some] at h
          nomatch h

/-- The fields decoded from an infostring are its own exactly when all conversions match. -/
theorem unpack_same_iff (infostr : Bytes) :
    (∀ info info' : CntlAddrs, (unpackFromInfostring infostr info).decoded = (unpackFromInfostring infostr info').decoded) ↔
      (scanInfostring infostr).isSome := by
  constructor
  · intro hall
    cases hscan : scanInfostring infostr with
    | some fields => rfl
    | none =>
      -- two contents that differ in the port
      have hsame := hall { (default : CntlAddrs) with remotePort := 0 } { (default : CntlAddrs) with remotePort := 1 }
      have hport := congrArg (fun fields => fields.2.2.2) hsame
      simp only [CntlAddrs.decoded, remotePort_unpack hscan] at hport
      exact absurd hport (by decide)
  · intro hsome info info'
    obtain ⟨fields, hscan⟩ := Option.isSome_iff_exists.1 hsome
    rw [decoded_unpack hscan, decoded_unpack hscan]

/-! ## Pulls that store what they have read -/

/-- A pull reads the wire first and then stores what it has read. -/
def Stores {A W : Type} (pull : A → Prog (Status × A)) (raw : Prog (Status × W)) (store : W → A → A) : Prop :=
  ∀ args, pull args = raw >>= fun got => pure (got.1, if got.1 = .success then store got.2 args else args)

section Stores

variable {A D P : Type} {decoded : A → D} {pull : A → Prog (Status × A)} {raw : Prog (Status × P × Bytes)} {store : P × Bytes → A → A}

theorem Stores.run (hpull : Stores pull raw store) {s s' : Proc} {tr : List Event} {args a : A} :
    Run (pull args s) tr s' (.success, a) ↔ ∃ w, Run (raw s) tr s' (.success, w) ∧ a = store w args := by
  rw [hpull args, Prog.bind_apply]
  constructor
  · intro hrun
    obtain ⟨tr₁, tr₂, s₁, ⟨stat, w⟩, rfl, hraw, hlast⟩ := run_bind_iff.1 hrun
    obtain ⟨rfl, rfl, heq⟩ := run_ret_iff.1 hlast
    obtain ⟨rfl, rfl⟩ := Prod.mk.inj heq
    rw [List.append_nil]
    exact ⟨w, hraw, if_pos rfl⟩
  · rintro ⟨w, hraw, rfl⟩
    refine run_bind_iff.2 ⟨tr, [], s', _, (List.append_nil tr).symm, hraw, ?_⟩
    exact run_ret_iff.2 ⟨rfl, rfl, rfl⟩

/-- Such a pull depends on the wire alone exactly when the conversions of the infostring it has read match. -/
theorem dependsOnWire_iff (hpull : Stores pull raw store)
    (hstore : ∀ w, (∀ args args', decoded (store w args) = decoded (store w args')) ↔ (scanInfostring w.2).isSome)
    {s s' : Proc} {tr : List Event} {infostr : Bytes} {args a : A} (hrun : Run (pull args s) tr s' (.success, a))
    (hinfostr : ∀ s' w, Run (raw s) tr s' (.success, w) → w.2 = infostr) :
    DependsOnWire decoded pull s tr ↔ (scanInfostring infostr).isSome := by
  obtain ⟨w, hraw, -⟩ := hpull.run.1 hrun
  rw [← hinfostr s' w hraw, ← hstore w]
  constructor
  · intro hall args args'
    exact hall args args' s' s' _ _ (hpull.run.2 ⟨w, hraw, rfl⟩) (hpull.run.2 ⟨w, hraw, rfl⟩)
  · intro hsame args args' s₁ s₂ a a' h h'
    obtain ⟨w₁, h₁, rfl⟩ := hpull.run.1 h
    obtain ⟨w₂, h₂, rfl⟩ := hpull.run.1 h'
    obtain rfl := (Prod.mk.inj (h₁.functional hraw).2).2
    obtain rfl := (Prod.mk.inj (h₂.functional hraw).2).2
    exact hsame args args'

end Stores

/-! ## The three headers -/

/-- The packet and the infostring, as the headers of the control channel that have one read them. -/
def pullPair (sock : Sockfd) (type : PacketType) (timeout : Int) : Prog (Status × Bytes × Bytes) := do
  let (stat, packet) ← pullPacket sock type timeout
  if stat ≠ .success then return (stat, [], [])
  let (stat, infostr) ← pullTcpData sock infostrSize false
  if stat ≠ .success then return (stat, [], [])
  return (stat, packet, infostr)

theorem lastReceived_concat (tr : List Event) {e : Event} {b : Bytes} (h : receivedBytes e = some b) : lastReceived (tr ++ [e]) = b := by
  simp [lastReceived, List.filterMap_append, h]

/-- The infostring is received last. -/
theorem after_pullPair (sock : Sockfd) (type : PacketType) (timeout : Int) (s : Proc) :
    (pullPair sock type timeout s).After (fun tr _ got => got.1 = .success → got.2.2 = lastReceived tr) := by
  unfold pullPair
  refine after_bind_of (P := fun _ _ _ => True) (Tree.after_self.mono fun _ _ _ _ => trivial) fun tr s₁ got _ => ?_
  refine after_ite (fun hne => after_pure fun h => absurd h hne) fun _ => ?_
  unfold pullTcpData
  refine Tree.after_bind.2 (after_syscall fun received => ?_)
  cases received with
  | none => exact after_ite (fun _ => after_pure nofun) (fun h => absurd nofun h)
  | some b =>
    refine after_ite (fun _ => after_pure ?_) fun _ => after_pure ?_
    · exact after_ite (fun _ => after_pure nofun) (fun h => absurd nofun h)
    · refine after_ite (fun h => absurd rfl h) fun _ => after_pure fun _ => ?_
      exact (lastReceived_concat _ rfl).symm

theorem stores_packetInfostr {A : Type} (sock : Sockfd) (type : PacketType) (timeout : Int) (store : Bytes × Bytes → A → A) :
    Stores (fun args => pullPacket sock type timeout >>= fun got => if got.1 ≠ .success then pure (got.1, args) else
      pullTcpData sock infostrSize false >>= fun got' =>
        if got'.1 ≠ .success then pure (got'.1, args) else pure (got'.1, store (got.2, got'.2) args))
      (pullPair sock type timeout) store := by
  intro args
  unfold pullPair
  rw [bind_assoc]
  refine congrArg (pullPacket sock type timeout >>= ·) (funext fun got => ?_)
  by_cases hgot : got.1 = .success
  · simp only [hgot, ne_eq, not_true_eq_false, if_false, bind_assoc]
    refine congrArg (pullTcpData sock infostrSize false >>= ·) (funext fun got' => ?_)
    by_cases hgot' : got'.1 = .success
    · simp only [hgot', not_true_eq_false, if_false, pure_bind, if_true]
    · simp only [hgot', not_false_eq_true, if_true, pure_bind, if_false]
  · simp only [hgot, ne_eq, not_false_eq_true, if_true, pure_bind, if_false]

theorem stores_pullCastHeader (sock : Sockfd) (timeout : Int) : Stores (fun args => pullCastHeader sock args timeout)
    (pullPair sock .cast timeout) (fun w args =>
      { packet := convertCastPacket (.ofBytes w.1), info := unpackFromInfostring w.2 args.info }) :=
  stores_packetInfostr sock .cast timeout (fun w (args : CastArgs) =>
    { packet := convertCastPacket (.ofBytes w.1), info := unpackFromInfostring w.2 args.info })

theorem stores_pullSendHeader (sock : Sockfd) (timeout : Int) : Stores (fun args => pullSendHeader sock args timeout)
    (pullPair sock .send timeout) (fun w args =>
      { packet := convertSendPacket (.ofBytes w.1), info := unpackFromInfostring w.2 args.info }) :=
  stores_packetInfostr sock .send timeout (fun w (args : SendArgs) =>
    { packet := convertSendPacket (.ofBytes w.1), info := unpackFromInfostring w.2 args.info })

/-- The packet and the infostring of a datagram, as `pull_broadcast_header` reads them. -/
def pullDatagram (sock : Sockfd) (timeout : Int) : Prog (Status × Bytes × Bytes) := do
  let allocated : Bool ← syscall (.malloc (PacketType.size .cast + infostrSize))
  if !allocated then return (.emalloc, [], [])
  let polled : PollResult ← syscall (.poll .dgram sock .pollin timeout)
  match polled with
  | .error => return (.failure, [], [])
  | .timeout => return (.timeout, [], [])
  | .ready hit =>
    if !hit then return (.errpoll, [], [])
    let (stat, buf) ← pullUdpData sock (PacketType.size .cast + infostrSize)
    if stat ≠ .success then return (stat, [], [])
    if byteAt buf 0 ≠ PacketType.code .cast then return (.badtype, [], [])
    return (.success, buf.take (PacketType.size .cast), buf.drop (PacketType.size .cast))

theorem stores_pullBroadcastHeader (sock : Sockfd) (timeout : Int) : Stores (fun args => pullBroadcastHeader sock args timeout)
    (pullDatagram sock timeout) (fun w args =>
      { packet := convertCastPacket (.ofBytes w.1), info := unpackFromInfostring w.2 args.info }) := by
  intro args
  unfold pullBroadcastHeader pullDatagram
  dsimp only
  rw [bind_assoc]
  refine congrArg (syscall _ >>= ·) (funext fun allocated => ?_)
  cases allocated with
  | false => rfl
  | true =>
    simp only [Bool.not_true, Bool.false_eq_true, if_false]
    rw [bind_assoc]
    refine congrArg (syscall _ >>= ·) (funext fun polled => ?_)
    cases polled with
    | error => rfl
    | timeout => rfl
    | ready hit =>
      cases hit with
      | false => rfl
      | true =>
        simp only [Bool.not_true, Bool.false_eq_true, if_false, bind_assoc]
        refine congrArg (pullUdpData sock _ >>= ·) (funext fun got => ?_)
        by_cases hgot : got.1 = .success
        · simp only [hgot, ne_eq, not_true_eq_false, if_false]
          by_cases htype : byteAt got.2 0 = PacketType.code .cast
          · simp only [htype, not_true_eq_false, if_false, pure_bind, if_true]
          · simp only [htype, not_false_eq_true, if_true]
            rfl
        · simp only [hgot, ne_eq, not_false_eq_true, if_true, pure_bind, if_false]

theorem after_pullDatagram (sock : Sockfd) (timeout : Int) (s : Proc) : (pullDatagram sock timeout s).After (fun tr _ got =>
    got.1 = .success → got.2.2 = (lastReceived tr).drop (PacketType.size .cast)) := by
  unfold pullDatagram
  refine after_syscall fun allocated => after_ite (fun _ => after_pure nofun) fun _ => after_syscall fun polled => ?_
  cases polled with
  | error => exact after_pure nofun
  | timeout => exact after_pure nofun
  | ready hit =>
    refine after_ite (fun _ => after_pure nofun) fun _ => ?_
    unfold pullUdpData
    refine Tree.after_bind.2 (after_syscall fun received => ?_)
    cases received with
    | none => exact after_ite (fun _ => after_pure nofun) (fun h => absurd nofun h)
    | some b =>
      refine after_ite (fun _ => after_pure ?_) fun _ => after_pure ?_
      · exact after_ite (fun _ => after_pure nofun) (fun h => absurd nofun h)
      · refine after_ite (fun h => absurd rfl h) fun _ => after_ite (fun _ => after_pure nofun) fun _ => after_pure fun _ => ?_
        exact congrArg (List.drop _) (lastReceived_concat [_, _] rfl).symm

end DecodedAux

namespace DecodedRun

open DecodedAux

/-- Every call succeeds, and each `recv` gets the next of the receptions. -/
def env (receptions : List Bytes) (s : Proc) : (c : Call) → c.Answer × List Bytes
  | .recv _ _ size _ => (some ⟨(receptions.headD []).take size, Sample.length_received receptions size⟩, receptions.tail)
  | c => ((Sample.env [] s c).1, receptions)

/-- The infostring `"a"`. -/
def infostr : Bytes := 97 :: List.replicate 319 0

def puller : Proc := ⟨Sample.receiver, .handshake⟩

/-- What `*args` held before, with this port. -/
def before (port : UInt16) : CastArgs := { packet := packCastPacket 0, info := { Sample.addrs with remotePort := port } }

/-- The receptions of a CAST header over the control channel. -/
def stream : List Bytes := [[0x11], (packCastPacket 0).bytes, infostr]

/-- The receptions of one in a datagram. -/
def datagram : List Bytes := [(packCastPacket 0).bytes ++ infostr]

/-- What was read is accepted and its infostring is not complete. -/
def incomplete (out : Option (Proc × Status × Bytes × Bytes)) : Bool :=
  match out with
  | some (_, stat, w) => stat = .success && scanInfostring w.2 = none
  | none => false

/-- Then the port of an accepted header is the one that was there before. -/
theorem left_over {pull : CastArgs → Prog (Status × CastArgs)} {raw : Prog (Status × Bytes × Bytes)}
    (hpull : Stores pull raw (fun w args =>
      { packet := convertCastPacket (.ofBytes w.1), info := unpackFromInfostring w.2 args.info }))
    (receptions : List Bytes) (h : incomplete (play env receptions (raw puller)).2 = true) :
    ∃ tr s', ∀ port, ∃ a, Run (pull (before port) puller) tr s' (.success, a) ∧ a.info.remotePort = port := by
  cases hout : (play env receptions (raw puller)).2 with
  | none =>
    rw [hout] at h
    nomatch h
  | some out =>
    obtain ⟨s', stat, w⟩ := out
    rw [hout] at h
    simp only [incomplete, Bool.and_eq_true, decide_eq_true_eq] at h
    obtain ⟨rfl, hscan⟩ := h
    refine ⟨_, s', fun port => ⟨_, hpull.run.2 ⟨w, run_play env hout, rfl⟩, ?_⟩⟩
    exact remotePort_unpack hscan _

end DecodedRun

end RufShare
