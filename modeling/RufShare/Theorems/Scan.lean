import Mathlib.Data.List.Forall2
import RufShare.Broadcast
import RufShare.Scanpair
import RufShare.Theorems.Codec
import RufShare.Theorems.Segments
import RufShare.Theorems.Decoded

/-!
# What a scan reports

What a scan hears is the sequence of its receptions, each with the status `pull_broadcast_header` gives it. The loop of `start_scanpair`
goes on as long as the interval lasts and the receptions since the last accepted one have not failed `sp_trycount` times, and its array
lists the accepted datagrams in the order in which they came. A `realloc` that fails is not noticed.
-/

namespace RufShare

open Resumption

/-- A call of a scan. -/
abbrev ScanEvent : Type := Resumption.Event Proc ScanCall.Answer

/-- A call of the rest of the library, made in a scan. -/
def scanEvent (e : Event) : ScanEvent := ⟨e.state, .sys e.call, e.answer⟩

def libraryCall : ScanEvent → Option Event
  | ⟨s, .sys c, r⟩ => some ⟨s, c, r⟩
  | _ => none

/-- A `realloc` that gave a null pointer. -/
def failedRealloc : ScanEvent → Bool
  | ⟨_, .realloc _, r⟩ => !r
  | _ => false

/-- A `close` that failed. -/
def failedClose : ScanEvent → Bool
  | ⟨_, .sys (.close _), r⟩ => !r
  | _ => false

/-- What the clock showed. -/
def clock : ScanEvent → Option Int
  | ⟨_, .time, now⟩ => some now
  | _ => none

/-- What one call of `pull_broadcast_header` meets: no buffer, an end of `poll` without `POLLIN`, an error of `recv`, or a datagram. -/
inductive Reception where
  | noBuffer | failure | timeout | errpoll | errrecv
  | datagram (d : Bytes)
  deriving DecidableEq, Repr

def Reception.status : Reception → Status
  | .noBuffer => .emalloc
  | .failure => .failure
  | .timeout => .timeout
  | .errpoll => .errpoll
  | .errrecv => .errrecv
  | .datagram d =>
    if d.length < PacketType.size .cast + infostrSize then .lowsize
    else if byteAt d 0 ≠ PacketType.code .cast then .badtype
    else .success

/-- The reception a call decides. -/
def reception : Event → Option Reception
  | ⟨_, .malloc _, r⟩ => if r then none else some .noBuffer
  | ⟨_, .poll _ _ _ _, .error⟩ => some .failure
  | ⟨_, .poll _ _ _ _, .timeout⟩ => some .timeout
  | ⟨_, .poll _ _ _ _, .ready hit⟩ => if hit then none else some .errpoll
  | ⟨_, .recv _ _ _ _, none⟩ => some .errrecv
  | ⟨_, .recv _ _ _ _, some b⟩ => some (.datagram b.1)
  | _ => none

/-- The receptions of a scan. -/
def heard (tr : List ScanEvent) : List Reception := (tr.filterMap libraryCall).filterMap reception

/-- A reception that is neither SUCCESS nor BADTYPE nor TIMEOUT. -/
def Reception.missed (o : Reception) : Bool := o.status ≠ .success && o.status ≠ .badtype && o.status ≠ .timeout

/-- How many receptions have been missed since the last SUCCESS. -/
def misses (os : List Reception) : Nat := (os.reverse.takeWhile (fun o => o.status ≠ .success)).countP Reception.missed

/-- The datagram of a reception that is a SUCCESS. -/
def Reception.accepted : Reception → Option Bytes
  | .datagram d => if (Reception.datagram d).status = .success then some d else none
  | _ => none

/-- The accepted datagrams, in the order in which they came. -/
def accepted (os : List Reception) : List Bytes := os.filterMap Reception.accepted

/-- The entries for datagrams that are scanned one after the other into the same header. -/
def entries : CntlAddrs → List Bytes → List PairInfo
  | _, [] => []
  | previous, d :: ds =>
    let info := unpackFromInfostring (d.drop (PacketType.size .cast)) previous
    pairInfo info :: entries info ds

/-- `*info` with entries added to it. -/
def extended (info : Option (List PairInfo)) (added : List PairInfo) : Option (List PairInfo) :=
  if added = [] then info else some (info.getD [] ++ added)

/-- The clock showed last that `sp_interval` has passed since it was first read. -/
def IntervalOver (k : ScanConfig) (tr : List ScanEvent) : Prop :=
  ∃ start now, (tr.filterMap clock).head? = some start ∧ (tr.filterMap clock).getLast? = some now ∧ k.spInterval ≤ now - start

/-- No stop before the end of `os`: fewer than `t` receptions have been missed since the last SUCCESS at each point before it. -/
def GoesOn (t : Int) (before os : List Reception) : Prop := ∀ n < os.length, (misses (before ++ os.take n) : Int) < t

/-- What `start_scanpair` returns after its loop. -/
structure ScanReport (k : ScanConfig) (previous : CntlAddrs) (tr : List ScanEvent) (stat : Status) (info : Option (List PairInfo))
    (len : Nat) : Prop where
  info : info = extended none (entries previous (accepted (heard tr)))
  len : len = (accepted (heard tr)).length
  going : ∀ n < (heard tr).length, (misses ((heard tr).take n) : Int) < k.spTrycount
  stops : (misses (heard tr) : Int) = k.spTrycount ∨ (misses (heard tr) : Int) < k.spTrycount ∧ IntervalOver k tr
  stat : stat = if tr.getLast?.any failedClose then .failure else if (misses (heard tr) : Int) = k.spTrycount then .exptry0 else .success

/-- Where a scan that is allowed a number of rounds is cut: it has heard a reception in each, and neither reason to stop has come. -/
structure ScanCut (k : ScanConfig) (rounds : Nat) (tr : List ScanEvent) : Prop where
  allocated : tr.any failedRealloc = false
  rounds : (heard tr).length = rounds
  going : ∀ n ≤ (heard tr).length, (misses ((heard tr).take n) : Int) < k.spTrycount
  inTime : ∃ start, (tr.filterMap clock).head? = some start ∧ ∀ now ∈ (tr.filterMap clock).tail, now - start < k.spInterval

namespace ScanAux

/-! ## Rules -/

section Rules

variable {α β : Type} {s : Proc} {Q : List ScanEvent → Proc → β → Prop} {C : List ScanEvent → Prop}

theorem after_scanTree {t : Tree α} {Q : List ScanEvent → Proc → α → Prop}
    (h : t.After (fun tr s a => Q (tr.map scanEvent) s a)) : (scanTree t).After Q := by
  induction t generalizing Q with
  | ret s a => exact h
  | cut s => trivial
  | call s c k ih => exact fun r => ih r (h r)

theorem complete_scanTree {t : Tree α} (h : t.Complete) : (scanTree t).Complete := by
  induction t with
  | ret s a => trivial
  | cut s => exact h.elim
  | call s c k ih => exact fun r => ih r (h r)

theorem ends_sys {x : Prog α} {f : α → ScanProg β} (hx : Total x) (h : (x s).After (fun tr s₁ a =>
    (f a s₁).Ends (fun tr' s' b => Q (tr.map scanEvent ++ tr') s' b) (fun tr' => C (tr.map scanEvent ++ tr')))) :
    ((sys x >>= f) s).Ends Q C := by
  refine Tree.Ends.bind ((complete_scanTree (hx s)).ends (after_scanTree ?_))
  exact h

theorem ends_scancall {c : ScanCall} {f : c.Answer → ScanProg β}
    (h : ∀ r, (f r s).Ends (fun tr s' b => Q (⟨s, c, r⟩ :: tr) s' b) (fun tr => C (⟨s, c, r⟩ :: tr))) :
    ((scancall c >>= f) s).Ends Q C := h

theorem ends_conf {f : InitConfig → ScanProg β} (h : (f s.conf s).Ends Q C) : ((sys conf >>= f) s).Ends Q C := h

theorem ends_setConf {g : InitConfig → InitConfig} {f : Unit → ScanProg β} (h : (f () { s with conf := g s.conf }).Ends Q C) :
    ((sys (setConf g) >>= f) s).Ends Q C := h

theorem ends_pure {b : β} (h : Q [] s b) : ((pure b : ScanProg β) s).Ends Q C := h

theorem ends_ite {c : Prop} [Decidable c] {x y : ScanProg β} (hx : c → (x s).Ends Q C) (hy : ¬c → (y s).Ends Q C) :
    ((if c then x else y) s).Ends Q C := by
  by_cases hc : c
  · rw [if_pos hc]
    exact hx hc
  · rw [if_neg hc]
    exact hy hc

end Rules

/-! ## What a part of the library adds to the record of a scan -/

theorem libraryCall_map (tr : List Event) : (tr.map scanEvent).filterMap libraryCall = tr := by
  induction tr with
  | nil => rfl
  | cons e tr ih => exact congrArg (e :: ·) ih

theorem heard_append (tr tr' : List ScanEvent) : heard (tr ++ tr') = heard tr ++ heard tr' := by
  simp only [heard, List.filterMap_append]

theorem heard_map (tr : List Event) : heard (tr.map scanEvent) = tr.filterMap reception := by
  rw [heard, libraryCall_map]

theorem failedRealloc_map (tr : List Event) : (tr.map scanEvent).any failedRealloc = false := by
  rw [List.any_map, List.any_eq_false]
  exact fun _ _ => nofun

theorem clock_map (tr : List Event) : (tr.map scanEvent).filterMap clock = [] := by
  rw [List.filterMap_map, List.filterMap_eq_nil_iff]
  exact fun _ _ => rfl

/-! ## Misses -/

theorem misses_concat (os : List Reception) (o : Reception) : misses (os ++ [o]) =
    if o.status = .success then 0 else if o.missed then misses os + 1 else misses os := by
  unfold misses
  rw [List.reverse_append, List.reverse_singleton, List.singleton_append, List.takeWhile_cons]
  by_cases hstat : o.status = .success
  · simp [hstat]
  · simp only [ne_eq, hstat, not_false_eq_true, decide_true, if_true, if_false, List.countP_cons]
    cases o.missed <;> rfl

theorem accepted_of_ne {o : Reception} (h : o.status ≠ .success) : o.accepted = none := by
  cases o with
  | datagram d => exact if_neg h
  | _ => rfl

theorem accepted_of_success {o : Reception} (h : o.status = .success) : ∃ d, o.accepted = some d := by
  cases o with
  | datagram d => exact ⟨d, if_pos h⟩
  | _ => nomatch h

theorem goesOn_nil (t : Int) (before : List Reception) : GoesOn t before [] := fun _ hn => absurd hn (Nat.not_lt_zero _)

theorem goesOn_cons {t : Int} {before os : List Reception} {o : Reception} (h₀ : (misses before : Int) < t)
    (h : GoesOn t (before ++ [o]) os) : GoesOn t before (o :: os) := by
  intro n hn
  cases n with
  | zero => simpa using h₀
  | succ n => simpa using h n (Nat.lt_of_succ_lt_succ hn)

theorem extended_cons (info : Option (List PairInfo)) (p : PairInfo) (ps : List PairInfo) :
    extended (some (info.getD [] ++ [p])) ps = extended info (p :: ps) := by
  unfold extended
  by_cases hps : ps = []
  · simp [hps]
  · simp [hps]

/-! ## One reception -/

theorem total_pullBroadcastHeader (sock : Sockfd) (args : CastArgs) (timeout : Int) : Total (pullBroadcastHeader sock args timeout) := by
  unfold pullBroadcastHeader
  refine (Total.syscall _).bind fun allocated => .ite (.pure _) ((Total.syscall _).bind fun polled => ?_)
  cases polled with
  | error => exact .pure _
  | timeout => exact .pure _
  | ready hit =>
    refine .ite (.pure _) (.bind ?_ fun got => .ite (.pure _) (.ite (.pure _) (.pure _)))
    unfold pullUdpData
    refine (Total.syscall _).bind fun received => ?_
    cases received with
    | none => exact .pure _
    | some b => exact .ite (.pure _) (.pure _)

/-- A call of `pull_broadcast_header` meets one reception, and changes its header for an accepted datagram only. -/
structure Heard (args : CastArgs) (tr : List Event) (got : Status × CastArgs) (o : Reception) : Prop where
  receptions : tr.filterMap reception = [o]
  status : got.1 = o.status
  kept : got.1 ≠ .success → got.2 = args
  scanned : ∀ d, o.accepted = some d → got.2.info = unpackFromInfostring (d.drop (PacketType.size .cast)) args.info

theorem Heard.fail {args : CastArgs} {tr : List Event} {stat : Status} {o : Reception} (hr : tr.filterMap reception = [o])
    (hstat : stat = o.status) (hne : stat ≠ .success) : Heard args tr (stat, args) o where
  receptions := hr
  status := hstat
  kept := fun _ => rfl
  scanned := by
    intro d hd
    rw [accepted_of_ne (hstat ▸ hne)] at hd
    nomatch hd

theorem after_pullBroadcastHeader (sock : Sockfd) (args : CastArgs) (timeout : Int) (s : Proc) :
    (pullBroadcastHeader sock args timeout s).After (fun tr s' got => s' = s ∧ ∃ o, Heard args tr got o) := by
  unfold pullBroadcastHeader
  refine after_syscall fun allocated => ?_
  cases allocated with
  | false => exact after_pure ⟨rfl, .noBuffer, .fail rfl rfl nofun⟩
  | true =>
    refine after_ite nofun fun _ => after_syscall fun polled => ?_
    cases polled with
    | error => exact after_pure ⟨rfl, .failure, .fail rfl rfl nofun⟩
    | timeout => exact after_pure ⟨rfl, .timeout, .fail rfl rfl nofun⟩
    | ready hit =>
      cases hit with
      | false => exact after_pure ⟨rfl, .errpoll, .fail rfl rfl nofun⟩
      | true =>
        refine after_ite nofun fun _ => ?_
        unfold pullUdpData
        refine Tree.after_bind.2 (after_syscall fun received => ?_)
        cases received with
        | none => exact after_pure (after_ite (fun _ => after_pure ⟨rfl, .errrecv, .fail rfl rfl nofun⟩) (fun h => absurd nofun h))
        | some b =>
          refine after_ite (fun hlow => after_pure ?_) fun hfull => after_pure ?_
          · have hstat : (Reception.datagram b.1).status = .lowsize := if_pos hlow
            exact after_ite (fun _ => after_pure ⟨rfl, .datagram b.1, .fail rfl hstat.symm nofun⟩) (fun h => absurd nofun h)
          · refine after_ite (fun h => absurd rfl h) fun _ => after_ite (fun htype => ?_) fun htype => ?_
            · have hstat : (Reception.datagram b.1).status = .badtype := (if_neg hfull).trans (if_pos htype)
              exact after_pure ⟨rfl, .datagram b.1, .fail rfl hstat.symm nofun⟩
            · have hstat : (Reception.datagram b.1).status = .success := (if_neg hfull).trans (if_neg htype)
              refine after_pure ⟨rfl, .datagram b.1, rfl, hstat.symm, fun h => absurd rfl h, fun d hd => ?_⟩
              obtain rfl : b.1 = d := Option.some.inj ((if_pos hstat).symm.trans hd)
              rfl

/-! ## The loop -/

/-- What the loop has done when it ends: `before` are the receptions before it, `previous` and `x` what it starts with. -/
structure Listened (k : ScanConfig) (startTime : Int) (before : List Reception) (previous : CntlAddrs) (x : Scanned)
    (tr : List ScanEvent) (x' : Scanned) : Prop where
  trycount : x'.trycount = k.spTrycount - misses (before ++ heard tr)
  info : x'.info = extended x.info (entries previous (accepted (heard tr)))
  len : x'.len = x.len + (accepted (heard tr)).length
  goesOn : GoesOn k.spTrycount before (heard tr)
  stops : (misses (before ++ heard tr) : Int) = k.spTrycount ∨
    (misses (before ++ heard tr) : Int) < k.spTrycount ∧
      ∃ now, (tr.filterMap clock).getLast? = some now ∧ k.spInterval ≤ now - startTime

/-- How the loop ends. -/
structure LoopEnds (k : ScanConfig) (startTime : Int) (before : List Reception) (previous : CntlAddrs) (x : Scanned)
    (tr : List ScanEvent) (out : Option Scanned) : Prop where
  failed : out = none ↔ tr.any failedRealloc = true
  listened : ∀ x', out = some x' → Listened k startTime before previous x tr x'

/-- Where the loop is cut: it has heard a reception in each round, and neither reason to stop has come. -/
structure LoopCut (k : ScanConfig) (startTime : Int) (rounds : Nat) (before : List Reception) (tr : List ScanEvent) : Prop where
  allocated : tr.any failedRealloc = false
  rounds : (heard tr).length = rounds
  goesOn : GoesOn k.spTrycount before (heard tr)
  last : (misses (before ++ heard tr) : Int) < k.spTrycount
  inTime : ∀ now ∈ tr.filterMap clock, now - startTime < k.spInterval

/-- One round of the loop: it hears `o` in the interval, and goes on with `previous'` and `x'`. -/
structure Round (k : ScanConfig) (startTime : Int) (before : List Reception) (previous : CntlAddrs) (x : Scanned)
    (tr : List ScanEvent) (o : Reception) (previous' : CntlAddrs) (x' : Scanned) : Prop where
  hears : heard tr = [o]
  allocated : tr.any failedRealloc = false
  inTime : ∃ now, tr.filterMap clock = [now] ∧ now - startTime < k.spInterval
  going : (misses before : Int) < k.spTrycount
  trycount : x'.trycount = k.spTrycount - misses (before ++ [o])
  left : (misses (before ++ [o]) : Int) ≤ k.spTrycount
  info : ∀ ds, extended x'.info (entries previous' ds) = extended x.info (entries previous (o.accepted.toList ++ ds))
  len : x'.len = x.len + o.accepted.toList.length

theorem accepted_cons (o : Reception) (os : List Reception) : accepted (o :: os) = o.accepted.toList ++ accepted os := by
  unfold accepted
  rw [List.filterMap_cons]
  cases o.accepted <;> rfl

section Round

variable {k : ScanConfig} {startTime : Int} {before : List Reception} {previous previous' : CntlAddrs} {x x' : Scanned}
  {tr tr' : List ScanEvent} {o : Reception}

theorem Round.hears_append (h : Round k startTime before previous x tr o previous' x') (tr' : List ScanEvent) :
    heard (tr ++ tr') = o :: heard tr' := by
  rw [heard_append, h.hears]
  rfl

theorem Round.before_append (h : Round k startTime before previous x tr o previous' x') (tr' : List ScanEvent) :
    before ++ heard (tr ++ tr') = before ++ [o] ++ heard tr' := by
  rw [h.hears_append, List.append_assoc]
  rfl

theorem Round.listened (h : Round k startTime before previous x tr o previous' x') {x'' : Scanned}
    (h' : Listened k startTime (before ++ [o]) previous' x' tr' x'') :
    Listened k startTime before previous x (tr ++ tr') x'' where
  trycount := by rw [h.before_append, h'.trycount]
  info := by rw [h'.info, h.info, h.hears_append, accepted_cons]
  len := by rw [h'.len, h.len, h.hears_append, accepted_cons, List.length_append, Nat.add_assoc]
  goesOn := by
    rw [h.hears_append]
    exact goesOn_cons h.going h'.goesOn
  stops := by
    rw [h.before_append]
    rcases h'.stops with hmiss | ⟨hmiss, now, hnow, hover⟩
    · exact .inl hmiss
    · refine .inr ⟨hmiss, now, ?_, hover⟩
      rw [List.filterMap_append, List.getLast?_append, hnow]
      rfl

theorem Round.ends (h : Round k startTime before previous x tr o previous' x') {out : Option Scanned}
    (h' : LoopEnds k startTime (before ++ [o]) previous' x' tr' out) : LoopEnds k startTime before previous x (tr ++ tr') out where
  failed := by rw [List.any_append, h.allocated, Bool.false_or, h'.failed]
  listened := fun x'' hx => h.listened (h'.listened x'' hx)

theorem Round.cut (h : Round k startTime before previous x tr o previous' x') {rounds : Nat}
    (h' : LoopCut k startTime rounds (before ++ [o]) tr') : LoopCut k startTime (rounds + 1) before (tr ++ tr') where
  allocated := by rw [List.any_append, h.allocated, h'.allocated, Bool.or_self]
  rounds := by rw [h.hears_append, List.length_cons, h'.rounds]
  goesOn := by
    rw [h.hears_append]
    exact goesOn_cons h.going h'.goesOn
  last := by
    rw [h.before_append]
    exact h'.last
  inTime := by
    obtain ⟨now, hclock, hnow⟩ := h.inTime
    rw [List.filterMap_append, hclock, List.singleton_append]
    exact List.forall_mem_cons.2 ⟨hnow, h'.inTime⟩

/-- A round that uses up `trycount` is the last. -/
theorem Round.last (h : Round k startTime before previous x tr o previous' x') (hzero : x'.trycount = 0) :
    LoopEnds k startTime before previous x tr (some x') := by
  have hmiss : (misses (before ++ [o]) : Int) = k.spTrycount := by
    have htry := h.trycount
    omega
  have hnil : extended x'.info (entries previous' []) = x'.info := if_pos rfl
  have hend : LoopEnds k startTime (before ++ [o]) previous' x' [] (some x') :=
    { failed := ⟨nofun, nofun⟩
      listened := by
        rintro x'' ⟨rfl⟩
        have hlisten : (misses (before ++ [o] ++ heard []) : Int) = k.spTrycount := by simpa [heard] using hmiss
        refine ⟨?_, hnil.symm, rfl, goesOn_nil _ _, .inl hlisten⟩
        rw [hlisten, hzero]
        omega }
  have hall := h.ends hend
  rwa [List.append_nil] at hall

end Round

/-- What is left of a round after its reception: a stop, or the next round. -/
theorem ends_again {k : ScanConfig} {startTime : Int} {rounds : Nat} {previous : CntlAddrs} {header : CastArgs} {x x' : Scanned}
    {before : List Reception} {tr : List ScanEvent} {o : Reception} {s : Proc}
    (ih : ∀ header x before s, x.trycount = k.spTrycount - misses before → (misses before : Int) < k.spTrycount →
      (scanLoop k startTime rounds header x s).Ends (fun tr _ out => LoopEnds k startTime before header.info x tr out)
        (LoopCut k startTime rounds before))
    (h : Round k startTime before previous x tr o header.info x') :
    ((if x'.trycount = 0 then pure (some x') else scanLoop k startTime rounds header x' : ScanProg (Option Scanned)) s).Ends
      (fun tr' _ out => LoopEnds k startTime before previous x (tr ++ tr') out)
      (fun tr' => LoopCut k startTime (rounds + 1) before (tr ++ tr')) := by
  refine ends_ite (fun hzero => ends_pure ?_) fun hne => ?_
  · rw [List.append_nil]
    exact h.last hzero
  · have hlt : (misses (before ++ [o]) : Int) < k.spTrycount := by
      have htry := h.trycount
      have hle := h.left
      omega
    exact (ih header x' (before ++ [o]) s h.trycount hlt).mono (fun _ _ _ h' => h.ends h') (fun _ h' => h.cut h')

theorem ends_scanLoop (k : ScanConfig) (startTime : Int) (rounds : Nat) : ∀ header x before (s : Proc),
    x.trycount = k.spTrycount - misses before → (misses before : Int) < k.spTrycount →
    (scanLoop k startTime rounds header x s).Ends (fun tr _ out => LoopEnds k startTime before header.info x tr out)
      (LoopCut k startTime rounds before) := by
  -- induction on the rounds, for whatever has been heard before
  induction rounds with
  | zero =>
    intro header x before s _ hlt
    refine ⟨rfl, rfl, goesOn_nil _ _, ?_, nofun⟩
    simpa [heard] using hlt
  | succ rounds ih =>
    intro header x before s htry hlt
    unfold scanLoop
    refine ends_scancall fun now => ends_ite (fun hnow => ?_) fun hover => ends_pure ?_
    · refine ends_conf (ends_sys (total_pullBroadcastHeader _ _ _) ?_)
      refine (after_pullBroadcastHeader _ _ _ _).mono ?_
      rintro tr s' ⟨stat, header'⟩ ⟨rfl, o, hheard⟩
      obtain ⟨hrec, rfl, hkept, hscan⟩ := hheard
      have hheard : heard (⟨s', .time, now⟩ :: tr.map scanEvent) = [o] := (heard_map tr).trans hrec
      have hclock : (⟨s', .time, now⟩ :: tr.map scanEvent).filterMap clock = [now] := congrArg (now :: ·) (clock_map tr)
      refine ends_ite (fun hstat => ?_) fun hstat => ?_
      · -- an accepted datagram is an entry more
        obtain ⟨d, hd⟩ := accepted_of_success hstat
        have hzero : misses (before ++ [o]) = 0 := (misses_concat before o).trans (if_pos hstat)
        refine ends_scancall fun allocated => ?_
        cases allocated with
        | false =>
          refine ends_ite (fun _ => ends_pure ⟨?_, nofun⟩) (fun h => absurd rfl h)
          simp [failedRealloc]
        | true =>
          have hround : Round k startTime before header.info x
              (⟨s', .time, now⟩ :: (tr.map scanEvent ++ [⟨s', .realloc (pairInfoSize * (x.len + 1)), true⟩])) o header'.info
              { trycount := k.spTrycount, info := some (x.info.getD [] ++ [pairInfo header'.info]), len := x.len + 1 } := by
            refine ⟨?_, ?_, ⟨now, ?_, hnow⟩, hlt, ?_, ?_, fun ds => ?_, ?_⟩
            · rw [← List.cons_append, heard_append, hheard]
              rfl
            · rw [List.any_cons, List.any_append, failedRealloc_map]
              rfl
            · rw [← List.cons_append, List.filterMap_append, hclock]
              rfl
            · rw [hzero]
              simp
            · rw [hzero]
              omega
            · rw [hd, Option.toList_some, List.singleton_append]
              simp only [entries, ← hscan d hd]
              exact extended_cons x.info _ _
            · rw [hd]
              rfl
          refine ends_ite nofun fun _ => (ends_again ih hround).mono (fun _ _ _ h => ?_) (fun _ h => ?_)
          · simpa using h
          · simpa using h
      · -- a reception that is not accepted leaves the header
        obtain rfl : header' = header := hkept hstat
        have hnone : o.accepted = none := accepted_of_ne hstat
        have hmisses := (misses_concat before o).trans (if_neg hstat)
        have hmissed : o.missed = true ↔ o.status ≠ .badtype ∧ o.status ≠ .timeout := by simp [Reception.missed, hstat]
        have hround : Round k startTime before header'.info x (⟨s', .time, now⟩ :: tr.map scanEvent) o header'.info
            (if o.status ≠ .badtype ∧ o.status ≠ .timeout then { x with trycount := x.trycount - 1 } else x) := by
          by_cases hmiss : o.status ≠ .badtype ∧ o.status ≠ .timeout
          · rw [if_pos (hmissed.2 hmiss)] at hmisses
            rw [if_pos hmiss]
            refine ⟨hheard, failedRealloc_map tr, ⟨now, hclock, hnow⟩, hlt, ?_, ?_, fun ds => ?_, ?_⟩
            · change x.trycount - 1 = _
              omega
            · omega
            · rw [hnone]
              rfl
            · rw [hnone]
              rfl
          · rw [if_neg (fun h => hmiss (hmissed.1 h))] at hmisses
            rw [if_neg hmiss]
            refine ⟨hheard, failedRealloc_map tr, ⟨now, hclock, hnow⟩, hlt, ?_, ?_, fun ds => ?_, ?_⟩
            · rw [hmisses, htry]
            · omega
            · rw [hnone]
              rfl
            · rw [hnone]
              rfl
        refine (ends_again ih hround).mono (fun _ _ _ h => ?_) (fun _ h => ?_)
        · simpa using h
        · simpa using h
    · -- the interval is over
      have hheard : before ++ heard [⟨s, .time, now⟩] = before := List.append_nil before
      refine ⟨⟨nofun, nofun⟩, ?_⟩
      rintro x' ⟨rfl⟩
      refine ⟨by rw [hheard, htry], rfl, rfl, goesOn_nil _ _, .inr ⟨by rwa [hheard], now, rfl, ?_⟩⟩
      omega

/-! ## The scan -/

theorem total_initScanSocket (sock : Sockfd) (srcIp : Bytes) (srcPort : UInt16) : Total (initScanSocket sock srcIp srcPort) := by
  unfold initScanSocket
  cases inetPton srcIp with
  | none => exact .pure _
  | some src =>
    refine (Total.syscall _).bind fun opened => ?_
    cases opened with
    | none => exact .pure _
    | some fd =>
      refine (Total.syscall _).bind fun ok => .ite (.pure _) ((Total.syscall _).bind fun ok => .ite (.pure _) ?_)
      exact (Total.syscall _).bind fun ok => .ite (.pure _) (.pure _)

theorem total_closeSocket (sock : Sockfd) : Total (closeSocket sock) := by
  unfold closeSocket
  exact (Total.syscall _).bind fun ok => .ite (.pure _) (.pure _)

/-- Nothing is received before the socket is bound. -/
theorem after_initScanSocket (sock : Sockfd) (srcIp : Bytes) (srcPort : UInt16) (s : Proc) :
    (initScanSocket sock srcIp srcPort s).After (fun tr _ _ => tr.filterMap reception = []) := by
  unfold initScanSocket
  cases inetPton srcIp with
  | none => exact after_pure rfl
  | some src =>
    refine after_syscall fun opened => ?_
    cases opened with
    | none => exact after_pure rfl
    | some fd =>
      refine after_syscall fun ok => after_ite (fun _ => after_pure rfl) fun _ => ?_
      refine after_syscall fun ok => after_ite (fun _ => after_pure rfl) fun _ => ?_
      exact after_syscall fun ok => after_ite (fun _ => after_pure rfl) fun _ => after_pure rfl

/-- How a scan ends. -/
structure ScanEnds (k : ScanConfig) (previous : CntlAddrs) (tr : List ScanEvent) (out : ScanEnd) : Prop where
  nullWrite : out = .nullWrite ↔ tr.any failedRealloc = true
  failed : ∀ stat, out = .failed stat → heard tr = []
  returned : ∀ stat info len, out = .returned stat info len → ScanReport k previous tr stat info len

/-- The calls before the loop. -/
structure Begins (startTime : Int) (tr : List ScanEvent) : Prop where
  heard : heard tr = []
  allocated : tr.any failedRealloc = false
  clock : tr.filterMap clock = [startTime]

section Begins

variable {k : ScanConfig} {startTime : Int} {tr tr' : List ScanEvent}

theorem Begins.heard_append (h : Begins startTime tr) (tr' : List ScanEvent) : RufShare.heard (tr ++ tr') = RufShare.heard tr' := by
  rw [ScanAux.heard_append, h.heard, List.nil_append]

theorem Begins.cut (h : Begins startTime tr) {rounds : Nat} (h' : LoopCut k startTime rounds [] tr') : ScanCut k rounds (tr ++ tr') where
  allocated := by rw [List.any_append, h.allocated, h'.allocated, Bool.or_self]
  rounds := by rw [h.heard_append, h'.rounds]
  going := by
    intro n hn
    rw [h.heard_append] at hn ⊢
    rcases Nat.lt_or_eq_of_le hn with hlt | rfl
    · exact h'.goesOn n hlt
    · rw [List.take_length]
      exact h'.last
  inTime := by
    refine ⟨startTime, ?_, ?_⟩
    · rw [List.filterMap_append, h.clock]
      rfl
    · rw [List.filterMap_append, h.clock]
      exact h'.inTime

/-- The report, once the socket is closed. -/
theorem Begins.report (h : Begins startTime tr) {previous : CntlAddrs} {x x' : Scanned} (hinfo : x.info = none) (hlen : x.len = 0)
    (h' : Listened k startTime [] previous x tr' x') (s : Proc) (sock : Sockfd) (ok : Bool) :
    ScanReport k previous (tr ++ (tr' ++ [⟨s, .sys (.close sock), ok⟩])) (if !ok then .failure else if x'.trycount = 0 then .exptry0 else .success)
      x'.info x'.len := by
  have hheard : RufShare.heard (tr ++ (tr' ++ [⟨s, .sys (.close sock), ok⟩])) = RufShare.heard tr' := by
    rw [h.heard_append, ScanAux.heard_append]
    exact List.append_nil _
  have htry : x'.trycount = 0 ↔ (misses (RufShare.heard tr') : Int) = k.spTrycount := by
    rw [h'.trycount, List.nil_append]
    omega
  constructor
  · rw [hheard, h'.info, hinfo]
  · rw [hheard, h'.len, hlen, Nat.zero_add]
  · rw [hheard]
    exact h'.goesOn
  · rw [hheard]
    rcases h'.stops with hmiss | ⟨hmiss, now, hnow, hover⟩
    · exact .inl hmiss
    · refine .inr ⟨hmiss, startTime, now, ?_, ?_, hover⟩
      · rw [List.filterMap_append, h.clock]
        rfl
      · have hclose : List.filterMap RufShare.clock [(⟨s, .sys (.close sock), ok⟩ : ScanEvent)] = [] := rfl
        rw [List.filterMap_append, List.filterMap_append, hclose, List.append_nil, List.getLast?_append, hnow]
        rfl
  · rw [hheard, ← List.append_assoc, List.getLast?_concat]
    simp only [htry]
    rfl

end Begins

theorem ends_startScanpair (k : ScanConfig) (ht : 1 ≤ k.spTrycount) (garbage : CastArgs) (rounds : Nat) (s : Proc) :
    (startScanpair k garbage rounds s).Ends (fun tr _ out => ScanEnds k garbage.info tr out) (ScanCut k rounds) := by
  unfold startScanpair
  refine ends_scancall fun startTime => ends_ite (fun _ => ends_pure ⟨⟨nofun, nofun⟩, fun _ _ => rfl, nofun⟩) fun _ => ?_
  refine ends_conf (ends_sys (total_initScanSocket _ _ _) ((after_initScanSocket _ _ _ _).mono ?_))
  rintro tr s₁ ⟨stat, sock⟩ hquiet
  have hbegins : Begins startTime (⟨s, .time, startTime⟩ :: tr.map scanEvent) :=
    ⟨(heard_map tr).trans hquiet, failedRealloc_map tr, congrArg (startTime :: ·) (clock_map tr)⟩
  refine ends_setConf (ends_ite (fun _ => ends_pure ⟨?_, fun _ _ => ?_, nofun⟩) fun _ => ?_)
  · rw [List.append_nil, hbegins.allocated]
    exact ⟨nofun, nofun⟩
  · rw [List.append_nil, hbegins.heard]
  · refine Tree.Ends.bind ((ends_scanLoop k startTime rounds garbage _ [] _ (by simp [misses]) (by simp [misses]; omega)).mono ?_
      fun tr' h => hbegins.cut h)
    intro tr' s₂ scanned hloop
    cases scanned with
    | none =>
      refine ends_pure ⟨⟨fun _ => ?_, fun _ => rfl⟩, nofun, nofun⟩
      simp [hloop.failed.1 rfl]
    | some x =>
      have hrealloc : tr'.any failedRealloc = false := Bool.eq_false_iff.2 fun h => nomatch hloop.failed.2 h
      refine ends_conf (ends_sys (total_closeSocket _) ?_)
      unfold closeSocket
      refine after_syscall fun ok => ?_
      have hreport := hbegins.report rfl rfl (hloop.listened x rfl) s₂ s₂.conf.castSock ok
      have hnull (stat : Status) : .returned stat x.info x.len = ScanEnd.nullWrite ↔
          (⟨s, .time, startTime⟩ :: tr.map scanEvent ++ (tr' ++ [⟨s₂, .sys (.close s₂.conf.castSock), ok⟩]) :
            List ScanEvent).any failedRealloc = true := by
        rw [List.any_append, List.any_append, hbegins.allocated, hrealloc]
        exact ⟨nofun, nofun⟩
      have hend (stat : Status) (hstat : stat = if !ok then .failure else if x.trycount = 0 then .exptry0 else .success) :
          ScanEnds k garbage.info (⟨s, .time, startTime⟩ :: tr.map scanEvent ++
            (tr' ++ [⟨s₂, .sys (.close s₂.conf.castSock), ok⟩])) (.returned stat x.info x.len) := by
        refine ⟨hnull stat, nofun, ?_⟩
        rintro _ _ _ ⟨rfl⟩
        rw [hstat]
        exact hreport
      cases ok with
      | false => exact after_pure (ends_ite (fun _ => ends_pure (hend _ rfl)) (fun h => absurd nofun h))
      | true =>
        refine after_pure (ends_ite (fun h => absurd rfl h) fun _ => ends_ite (fun hzero => ?_) fun hzero => ?_)
        · exact ends_pure (hend _ (if_pos hzero).symm)
        · exact ends_pure (hend _ (if_neg hzero).symm)

end ScanAux

/-! ## Allocation -/

/-- A `realloc` that fails is the end of the scan, which reports it, and nothing is written through a null `*info`. -/
def ReportsAllocation (tr : List ScanEvent) (out : ScanEnd) : Prop :=
  out ≠ .nullWrite ∧ ∀ tr₁ e tr₂, tr = tr₁ ++ e :: tr₂ → failedRealloc e = true → heard tr₂ = [] ∧ ∃ info len, out = .returned .emalloc info len

open ScanAux in
/-- A run of a scan treats allocation as it should exactly when no `realloc` in it fails: the first that does is followed by a write
through a null `*info`. -/
theorem scan_allocation_iff (k : ScanConfig) (ht : 1 ≤ k.spTrycount) (garbage : CastArgs) (rounds : Nat) (s : Proc)
    (tr : List ScanEvent) (s' : Proc) (out : ScanEnd) (hrun : Run (startScanpair k garbage rounds s) tr s' out) :
    ReportsAllocation tr out ↔ tr.any failedRealloc = false := by
  have hnull := (Tree.after_iff.1 (ends_startScanpair k ht garbage rounds s).after tr s' out hrun).nullWrite
  constructor
  · rintro ⟨hout, -⟩
    exact Bool.eq_false_iff.2 fun hfailed => hout (hnull.2 hfailed)
  · intro hall
    refine ⟨fun hout => ?_, ?_⟩
    · rw [hnull.1 hout] at hall
      nomatch hall
    · rintro tr₁ e tr₂ rfl hfailed
      rw [List.any_append, List.any_cons, hfailed, Bool.true_or, Bool.or_true] at hall
      nomatch hall

namespace ScanRun

/-- Every call succeeds but perhaps `realloc`; each `recv` gets the next of the receptions and each `time` the next of the times. -/
def env (allocates : Bool) (w : List Bytes × List Int) (s : Proc) : (c : ScanCall) → c.Answer × List Bytes × List Int
  | .time => (w.2.headD 0, w.1, w.2.tail)
  | .realloc _ => (allocates, w)
  | .sys c => ((DecodedRun.env w.1 s c).1, (DecodedRun.env w.1 s c).2, w.2)

/-- One miss is too many, and the interval is a second. -/
def config : ScanConfig := { spTrycount := 1, spInterval := 1, sptCast := 1 }

def garbage : CastArgs := DecodedRun.before 0

/-- The datagram of the receiver's broadcast. -/
def datagram : Bytes := (castArgs Sample.receiver).packet.bytes ++ packIntoInfostring (castArgs Sample.receiver).info

/-- A scan that gets the datagram before the interval is over. -/
def scan (allocates : Bool) : List ScanEvent × Option (Proc × ScanEnd) :=
  play (env allocates) ([datagram], [0, 0, 1]) (startScanpair config garbage 2 ⟨Sample.receiver, .setup⟩)

/-- The scan has heard the datagram, and ends so. -/
def endsIn (allocates : Bool) (out : ScanEnd) : Bool :=
  accepted (heard (scan allocates).1) = [datagram] && (scan allocates).1.any failedRealloc = !allocates &&
    (scan allocates).2.map Prod.snd = some out

theorem run_scan {allocates : Bool} {out : ScanEnd} (h : endsIn allocates out = true) :
    ∃ tr s', Run (startScanpair config garbage 2 ⟨Sample.receiver, .setup⟩) tr s' out ∧ accepted (heard tr) = [datagram] ∧
      tr.any failedRealloc = !allocates := by
  simp only [endsIn, Bool.and_eq_true, decide_eq_true_eq] at h
  obtain ⟨⟨hheard, hfailed⟩, hout⟩ := h
  obtain ⟨⟨s', _⟩, hplay, rfl⟩ := Option.map_eq_some_iff.1 hout
  exact ⟨_, s', run_play _ hplay, hheard, hfailed⟩

theorem endsIn_reported : endsIn true (.returned .success (some [⟨[98], Sample.ip, 1⟩]) 1) = true := by decide +kernel

theorem endsIn_nullWrite : endsIn false .nullWrite = true := by decide +kernel

end ScanRun

open ScanRun in
/-- A scan in which the array is allocated. -/
theorem scan_allocation_one : ∃ tr s' out, Run (startScanpair config garbage 2 ⟨Sample.receiver, .setup⟩) tr s' out ∧
    ReportsAllocation tr out := by
  obtain ⟨tr, s', hrun, -, hall⟩ := run_scan endsIn_reported
  exact ⟨tr, s', _, hrun, (scan_allocation_iff config (by decide) garbage 2 _ tr s' _ hrun).2 hall⟩

open ScanRun in
/-- A scan hears a CAST datagram and cannot allocate the array: it returns nothing, but writes the entry through a null pointer. -/
theorem scan_null_write : ∃ tr s', Run (startScanpair config garbage 2 ⟨Sample.receiver, .setup⟩) tr s' .nullWrite ∧
    accepted (heard tr) = [datagram] ∧ ¬ReportsAllocation tr .nullWrite := by
  obtain ⟨tr, s', hrun, hheard, -⟩ := run_scan endsIn_nullWrite
  exact ⟨tr, s', hrun, hheard, fun h => h.1 rfl⟩

/-! ## Broadcasts -/

/-- What `broadcast` checks of a configuration, whose arrays hold terminated strings, and no delimiter in the file name or the name. -/
structure Announces (c : InitConfig) : Prop where
  domain : InfostrDomain c.addrs
  filename : 58 ∉ c.addrs.filename
  name : 64 ∉ c.addrs.name

/-- `start_broadcast` sends the datagram in some run with this configuration. -/
def Emits (c : InitConfig) (d : Bytes) : Prop :=
  ∃ b rounds tr t, Path (startBroadcast b rounds ⟨c, .setup⟩) tr t ∧ d ∈ tr.filterMap pushedSegment

/-- The entry for a broadcaster. -/
def announced (c : InitConfig) : PairInfo := { name := c.addrs.name, ip := c.addrs.localIp, port := c.addrs.localPort }

namespace ScanAux

/-- The datagram of a header. -/
def castDatagram (args : CastArgs) : Bytes := args.packet.bytes ++ packIntoInfostring args.info

/-- Of datagrams, only this one is sent. -/
def SendsOnly (d : Bytes) (_ : Proc) (c : Call) : Prop := ∀ sock buf, c = .send .dgram sock buf → buf = d

theorem sendsOnly_other {d : Bytes} {c : Call} (h : (∃ sock buf, c = .send .dgram sock buf) → False) :
    Within (fun _ => True) (SendsOnly d) (syscall c) := .syscall fun _ _ sock buf hc => (h ⟨sock, buf, hc⟩).elim

theorem within_broadcastLoop (b : CastConfig) (header : CastArgs) (rounds : Nat) : ∀ trycount,
    Within (fun _ => True) (SendsOnly (castDatagram header)) (broadcastLoop b header rounds trycount) := by
  induction rounds with
  | zero => exact fun _ => .cutoff
  | succ rounds ih =>
    intro trycount
    unfold broadcastLoop
    refine .ite (.bind .conf fun c => .bind ?_ fun stat => ih _) (.pure _)
    unfold pushBroadcastHeader
    refine .bind (sendsOnly_other nofun) fun allocated => .ite (.pure _) (.bind (sendsOnly_other nofun) fun polled => ?_)
    cases polled with
    | error => exact .pure _
    | timeout => exact .pure _
    | ready hit =>
      refine .ite ?_ (.pure _)
      unfold pushUdpData
      refine .bind (.syscall ?_) fun sent => ?_
      · rintro _ _ _ _ ⟨rfl⟩
        rfl
      · cases sent with
        | none => exact .pure _
        | some n => exact .ite (.pure _) (.pure _)

theorem always_startBroadcast (b : CastConfig) (rounds : Nat) (s : Proc) :
    (startBroadcast b rounds s).Always (SendsOnly (castDatagram (castArgs s.conf))) (fun _ => True) := by
  have hinit (sock : Sockfd) (srcIp dstIp : Bytes) (srcPort dstPort : UInt16) : Within (fun _ => True)
      (SendsOnly (castDatagram (castArgs s.conf))) (initUdpSocket sock srcIp srcPort dstIp dstPort true) := by
    unfold initUdpSocket
    cases inetPton srcIp with
    | none => exact .pure _
    | some src =>
      cases inetPton dstIp with
      | none => exact .pure _
      | some dst =>
        refine .bind (sendsOnly_other nofun) fun opened => ?_
        cases opened with
        | none => exact .pure _
        | some fd =>
          refine .bind (sendsOnly_other nofun) fun ok => .ite (.pure _) (.bind (sendsOnly_other nofun) fun ok => .ite (.pure _) ?_)
          refine .bind (sendsOnly_other nofun) fun ok => .ite (.pure _) ?_
          exact .bind (sendsOnly_other nofun) fun ok => .ite (.pure _) (.pure _)
  unfold startBroadcast
  refine (Within.bind (hinit _ _ _ _ _) fun got => .bind (.setConf fun _ _ => trivial) fun _ => .ite (.pure _) ?_) s trivial
  refine .bind (within_broadcastLoop b _ rounds _) fun _ => .bind .conf fun c => ?_
  unfold closeSocket
  exact .bind (sendsOnly_other nofun) fun ok => .ite (.pure _) (.pure _)

/-- What a broadcast sends is the datagram of its header. -/
theorem eq_of_emits {c : InitConfig} {d : Bytes} (h : Emits c d) : d = castDatagram (castArgs c) := by
  obtain ⟨b, rounds, tr, t, hpath, hmem⟩ := h
  obtain ⟨e, he, hd⟩ := List.mem_filterMap.1 hmem
  have hsends := (always_startBroadcast b rounds ⟨c, .setup⟩).path hpath e he
  obtain ⟨s, call, r⟩ := e
  cases call with
  | send ty sock buf =>
    cases ty with
    | stream => nomatch hd
    | dgram =>
      obtain rfl : buf = d := Option.some.inj hd
      exact hsends sock buf rfl
  | _ => nomatch hd

/-- The datagram of a broadcast is read back, whatever the header held before. -/
theorem entries_cons_of_emits {c : InitConfig} {d : Bytes} (hc : Announces c) (h : Emits c d) (previous : CntlAddrs) (ds : List Bytes) :
    ∃ previous', entries previous (d :: ds) = announced c :: entries previous' ds := by
  have hfilename : sstrncpy c.addrs.filename maxFileNameSize = c.addrs.filename :=
    OfferAux.sstrncpy_of_lt hc.domain.filename_bytes (Nat.lt_succ_of_le hc.domain.filename_length.2)
  have hname : sstrncpy c.addrs.name maxNameSize = c.addrs.name :=
    OfferAux.sstrncpy_of_lt hc.domain.name_bytes (Nat.lt_succ_of_le hc.domain.name_length.2)
  have hip : sstrncpy c.addrs.localIp maxIpv4Size = c.addrs.localIp := by
    obtain ⟨-, hlen, hbytes⟩ := CodecAux.inetPton_isSome hc.domain.localIp
    refine OfferAux.sstrncpy_of_lt (fun b hb => ?_) (Nat.lt_succ_of_le hlen)
    rcases hbytes b hb with hdigit | rfl
    · rintro rfl
      exact absurd hdigit (by decide)
    · decide
  have hdomain : InfostrDomain (castArgs c).info := by
    refine ⟨?_, ?_, ?_, ?_, ?_⟩
    all_goals simp only [castArgs, hfilename, hname, hip]
    · exact hc.domain.filename_length
    · exact hc.domain.filename_bytes
    · exact hc.domain.name_length
    · exact hc.domain.name_bytes
    · exact hc.domain.localIp
  have hdrop : d.drop (PacketType.size .cast) = packIntoInfostring (castArgs c).info := by
    rw [eq_of_emits h, castDatagram]
    exact List.drop_left' (CastPacket.length_bytes _)
  have hunpack := CodecAux.unpack_pack hdomain (by simpa only [castArgs, hfilename] using hc.filename)
    (by simpa only [castArgs, hname] using hc.name) previous
  refine ⟨unpackFromInfostring (d.drop (PacketType.size .cast)) previous, congrArg (· :: _) ?_⟩
  rw [hdrop, hunpack]
  simp only [castArgs, hname, hip, pairInfo, announced]

theorem entries_of_emits {cs : List InitConfig} {ds : List Bytes} (h : List.Forall₂ Emits cs ds) (hcs : ∀ c ∈ cs, Announces c)
    (previous : CntlAddrs) : entries previous ds = cs.map announced := by
  induction h generalizing previous with
  | nil => rfl
  | cons hemits _ ih =>
    rw [List.forall_mem_cons] at hcs
    obtain ⟨previous', hentries⟩ := entries_cons_of_emits hcs.1 hemits previous _
    rw [hentries, ih hcs.2, List.map_cons]

end ScanAux

open ScanAux in
/-- A scan that can allocate its array reports what it heard. Where each accepted datagram is one that a broadcaster emits, `*info` and
`*len` list the broadcasters' names, addresses and ports in the order of the datagrams. The scan stops where `sp_trycount` receptions
have been missed since the last SUCCESS and not before, and else when the interval is over; the status says which, unless the socket
could not be closed. It hears one reception in each round: allowed more rounds, it comes to one of these ends. -/
theorem scan_reports_heard (k : ScanConfig) (ht : 1 ≤ k.spTrycount) (garbage : CastArgs) (rounds : Nat) (s : Proc)
    (cs : List InitConfig) (hcs : ∀ c ∈ cs, Announces c) :
    (∀ tr s' out, Run (startScanpair k garbage rounds s) tr s' out → tr.any failedRealloc = false →
      List.Forall₂ Emits cs (accepted (heard tr)) →
      (∃ stat, out = .failed stat ∧ heard tr = []) ∨
      ∃ stat, out = .returned stat (if cs = [] then none else some (cs.map announced)) cs.length ∧
        (∀ n < (heard tr).length, (misses ((heard tr).take n) : Int) < k.spTrycount) ∧
        ((misses (heard tr) : Int) = k.spTrycount ∨ (misses (heard tr) : Int) < k.spTrycount ∧ IntervalOver k tr) ∧
        stat = if tr.getLast?.any failedClose then .failure
          else if (misses (heard tr) : Int) = k.spTrycount then .exptry0 else .success) ∧
    ∀ tr s', Path (startScanpair k garbage rounds s) tr (.cut s') → ScanCut k rounds tr := by
  have hends := ends_startScanpair k ht garbage rounds s
  refine ⟨fun tr s' out hrun hrealloc hemits => ?_, fun tr s' hpath => hends.cut hpath⟩
  have hscan := Tree.after_iff.1 hends.after tr s' out hrun
  cases out with
  | failed stat => exact .inl ⟨stat, rfl, hscan.failed stat rfl⟩
  | nullWrite =>
    rw [hscan.nullWrite.1 rfl] at hrealloc
    nomatch hrealloc
  | returned stat info len =>
    obtain ⟨hinfo, hlen, hgoing, hstops, hstat⟩ := hscan.returned stat info len rfl
    refine .inr ⟨stat, ?_, hgoing, hstops, hstat⟩
    have hentries := entries_of_emits hemits hcs garbage.info
    rw [hinfo, hlen, hentries, ← hemits.length_eq, extended]
    simp

namespace ScanRun

theorem announces_receiver : Announces Sample.receiver := ⟨CodecRun.domain_addrs, by decide, by decide⟩

/-- A broadcast that is allowed one round sends the datagram. -/
theorem emits_datagram : Emits Sample.receiver datagram := by
  obtain ⟨t, hpath⟩ := path_play Sample.env [] (startBroadcast { bcTrycount := 1, bctCast := 1 } 1 ⟨Sample.receiver, .setup⟩)
  exact ⟨_, _, _, t, hpath, by decide +kernel⟩

end ScanRun

open ScanRun in
/-- A scan that hears the datagram of one broadcaster, and then the interval is over. -/
theorem scan_reports_heard_one : ∃ tr s', Run (startScanpair config garbage 2 ⟨Sample.receiver, .setup⟩) tr s'
      (.returned .success (some [announced Sample.receiver]) 1) ∧
    (misses (heard tr) : Int) < config.spTrycount ∧ IntervalOver config tr := by
  obtain ⟨tr, s', hrun, hheard, hall⟩ := run_scan endsIn_reported
  have hemits : List.Forall₂ Emits [Sample.receiver] (accepted (heard tr)) := by
    rw [hheard]
    exact .cons emits_datagram .nil
  have hreport := (scan_reports_heard config (by decide) garbage 2 ⟨Sample.receiver, .setup⟩ [Sample.receiver]
    (List.forall_mem_singleton.2 announces_receiver)).1 tr s' _ hrun hall hemits
  rcases hreport with ⟨_, hfailed, -⟩ | ⟨stat, hout, -, hstops, hstat⟩
  · nomatch hfailed
  · obtain ⟨rfl, -⟩ : Status.success = stat ∧ _ := by simpa using hout
    rcases hstops with hmiss | hover
    · rw [if_pos hmiss] at hstat
      split at hstat <;> nomatch hstat
    · exact ⟨tr, s', hrun, hover⟩

end RufShare
