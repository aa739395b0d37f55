import Mathlib.Tactic.Abel
import RufShare.Resumption.Ledger
import RufShare.Theorems.Verification

/-!
# The handles of a transfer

What the calls of a transfer open and close, kept in a ledger: streams, mappings and sockets. A run of `start_pusher` that returns
SUCCESS closes what it has opened and nothing else. A run of `start_puller` never does: the stream `create_file` makes the file with is
open at its end, and without that stream there is no mapping for `end_file_stream` to unmap.
-/

namespace RufShare

open Resumption Ledger

/-- What a process has open. A mapping goes by its length. -/
inductive Resource where
  | file (f : FileId)
  | mapping (size : Nat)
  | sock (fd : Sockfd)
  deriving DecidableEq, Repr

/-- What a call opens or closes. The broadcast's socket, which `start_puller` closes in its first phase, is left aside. -/
def handleEffect : Event → Option (Effect Resource)
  | ⟨_, .fopen _ _, some f⟩ => some (.acquire (.file f))
  | ⟨_, .fclose f, _⟩ => some (.release (.file f))
  | ⟨_, .mmap _ size, some _⟩ => some (.acquire (.mapping size))
  | ⟨_, .munmap size, r⟩ => if r then some (.release (.mapping size)) else none
  | ⟨_, .socket _, some fd⟩ => some (.acquire (.sock fd))
  | ⟨_, .accept _, some conn⟩ => some (.acquire (.sock conn.fd))
  | ⟨s, .close fd, _⟩ => if s.phase = .setup then none else some (.release (.sock fd))
  | _ => none

/-- The two programs of a transfer. -/
inductive Party where
  | pusher | puller
  deriving DecidableEq, Repr

/-- The calls of a run that returned SUCCESS. -/
def SuccessfulRun : Party → List Event → Prop
  | .pusher, tr => ∃ Γ rounds path c s, Run (startPusher Γ rounds path ⟨c, .setup⟩) tr s .success
  | .puller, tr => ∃ Γ garbage rounds c s, Run (startPuller Γ garbage rounds ⟨c, .setup⟩) tr s .success

/-- After each of the runs the process has open what it had before the first, and nothing was closed that was not open. -/
def KeepsHandles (opened : Multiset Resource) (runs : List (List Event)) : Prop :=
  ∀ n, replay handleEffect opened (runs.take n).flatten = some opened

namespace HandlesAux

/-- The handles `conf` names. -/
def SameHandles (s₀ s : Proc) : Prop :=
  s.conf.cntlSock = s₀.conf.cntlSock ∧ s.conf.connSock = s₀.conf.connSock ∧ s.conf.dataSock = s₀.conf.dataSock ∧
    s.conf.filec.mfile.handle = s₀.conf.filec.mfile.handle

theorem handleEffect_inert {e : Event} (h : e.call.Inert) : handleEffect e = none := by
  obtain ⟨s, c, r⟩ := e
  cases c <;> first | rfl | exact h.elim

/-- A program that opens and closes nothing. -/
abbrev Quiet {α : Type} (x : Prog α) : Prop := ∀ s₀, Within (SameHandles s₀) (fun _ c => c.Inert) x

theorem Quiet.after {α : Type} {x : Prog α} (h : Quiet x) (s : Proc) :
    (x s).After (fun tr s' _ => SameHandles s s' ∧ ∀ a, Moves handleEffect a tr a) := by
  refine ((h s).after (s := s) ⟨rfl, rfl, rfl, rfl⟩).mono ?_
  rintro tr s' _ ⟨hsame, hinert⟩
  exact ⟨hsame, Moves.quiet fun e he => handleEffect_inert (hinert e he)⟩

section

variable (s₀ : Proc)

theorem quiet_setMfile : ∀ (s : Proc) (stream : MFile), stream.handle = s.conf.filec.mfile.handle → SameHandles s₀ s →
    SameHandles s₀ { s with conf := { s.conf with filec := { s.conf.filec with mfile := stream } } } :=
  fun _ _ hstream h => ⟨h.1, h.2.1, h.2.2.1, hstream.trans h.2.2.2⟩

end

theorem quiet_pushHandshake : Quiet pushHandshake :=
  fun _ => within_pushHandshake (fun _ _ _ h => h) (fun _ _ _ h => h) (fun _ _ h => h) (fun _ h => h)

theorem quiet_pushTransfer (Γ : Libcrc) (rounds : Nat) : Quiet (pushTransfer Γ rounds) :=
  fun s₀ => within_pushTransfer (fun _ _ _ h => h) (quiet_setMfile s₀) (fun _ _ h => h) (fun _ h => h) (fun _ h => h) Γ rounds

theorem quiet_pushVerification (Γ : Libcrc) : Quiet (pushVerification Γ) :=
  fun _ => within_pushVerification (fun _ _ _ h => h) (fun _ h => h) Γ

theorem quiet_pullTransfer (Γ : Libcrc) (rounds : Nat) : Quiet (pullTransfer Γ rounds) :=
  fun s₀ => within_pullTransfer (fun _ _ _ h => h) (quiet_setMfile s₀) (fun _ _ h => h) (fun _ h => h) (fun _ h => h) Γ rounds

theorem quiet_pullVerification (Γ : Libcrc) (garbage : SendArgs) : Quiet (pullVerification Γ garbage) :=
  fun _ => within_pullVerification (fun _ _ _ h => h) (fun _ h => h) Γ garbage

theorem quiet_setSegsize : Quiet setSegsize := fun _ => .setConf fun _ h => h

/-! ## Opening -/

theorem after_initUdpSocket (sock : Sockfd) (srcIp dstIp : Bytes) (srcPort dstPort : UInt16) (s : Proc) :
    (initUdpSocket sock srcIp srcPort dstIp dstPort false s).After (fun tr s' got => s' = s ∧
      (got.1 = .success → ∀ a, Moves handleEffect a tr ({.sock got.2} + a))) := by
  unfold initUdpSocket
  cases inetPton srcIp with
  | none => exact after_pure ⟨rfl, nofun⟩
  | some src =>
    cases inetPton dstIp with
    | none => exact after_pure ⟨rfl, nofun⟩
    | some dst =>
      refine after_syscall fun opened => ?_
      cases opened with
      | none => exact after_pure ⟨rfl, nofun⟩
      | some fd =>
        -- the socket is not one to broadcast on
        refine Tree.after_bind.2 (after_pure (after_ite (fun h => nomatch h) fun _ => after_syscall fun ok => ?_))
        refine after_ite (fun _ => after_pure ⟨rfl, nofun⟩) fun _ => after_syscall fun ok => ?_
        refine after_ite (fun _ => after_pure ⟨rfl, nofun⟩) fun _ => after_syscall fun ok => ?_
        refine after_ite (fun _ => after_pure ⟨rfl, nofun⟩) fun _ => after_pure ⟨rfl, fun _ => ?_⟩
        exact fun a => .acquire_cons rfl (.quiet (by simp [handleEffect]) _)

theorem after_initTcpSocket (sock : Sockfd) (srcIp dstIp : Bytes) (srcPort dstPort : UInt16) (conn : Bool) (s : Proc) :
    (initTcpSocket sock srcIp srcPort dstIp dstPort conn s).After (fun tr s' got => s' = s ∧
      (got.1 = .success → ∀ a, Moves handleEffect a tr ({.sock got.2} + a))) := by
  unfold initTcpSocket
  cases inetPton srcIp with
  | none => exact after_pure ⟨rfl, nofun⟩
  | some src =>
    cases inetPton dstIp with
    | none => exact after_pure ⟨rfl, nofun⟩
    | some dst =>
      refine after_syscall fun opened => ?_
      cases opened with
      | none => exact after_pure ⟨rfl, nofun⟩
      | some fd =>
        refine after_syscall fun ok => after_ite (fun _ => after_pure ⟨rfl, nofun⟩) fun _ => after_syscall fun ok => ?_
        refine after_ite (fun _ => after_pure ⟨rfl, nofun⟩) fun _ => after_ite (fun _ => after_syscall fun ok => ?_) fun _ => ?_
        · refine after_ite (fun _ => after_pure ⟨rfl, nofun⟩) fun _ => after_pure ⟨rfl, fun _ => ?_⟩
          exact fun a => .acquire_cons rfl (.quiet (by simp [handleEffect]) _)
        · refine after_pure ⟨rfl, fun _ => ?_⟩
          exact fun a => .acquire_cons rfl (.quiet (by simp [handleEffect]) _)

theorem after_startCntl (conn : Bool) (s : Proc) : (startCntl conn s).After (fun tr s' stat =>
    s'.conf.filec.mfile.handle = s.conf.filec.mfile.handle ∧ s'.phase = s.phase ∧
      (stat = .success → ∀ a, Moves handleEffect a tr ({.sock s'.conf.cntlSock} + a))) := by
  unfold startCntl
  refine after_conf (after_ite (fun hne => after_pure ⟨rfl, rfl, fun h => absurd h hne⟩) fun _ => ?_)
  refine after_bind_of (after_initTcpSocket _ _ _ _ _ conn s) ?_
  rintro tr _ ⟨stat, sock⟩ ⟨rfl, hopen⟩
  refine after_setConf (after_pure ⟨rfl, rfl, fun h => ?_⟩)
  rw [List.append_nil]
  exact hopen h

theorem after_acceptCntl (timeout : Int) (s : Proc) : (acceptCntl timeout s).After (fun tr s' stat =>
    s'.conf.filec.mfile.handle = s.conf.filec.mfile.handle ∧ s'.conf.cntlSock = s.conf.cntlSock ∧ s'.phase = s.phase ∧
      (stat = .success → ∀ a, Moves handleEffect a tr ({.sock s'.conf.connSock} + a))) := by
  unfold acceptCntl acceptNewConnection
  refine after_conf (Tree.after_bind.2 (after_syscall fun ok => ?_))
  refine after_ite (fun _ => after_pure (after_pure ⟨rfl, rfl, rfl, nofun⟩)) fun _ => after_syscall fun polled => ?_
  cases polled with
  | error => exact after_pure (after_pure ⟨rfl, rfl, rfl, nofun⟩)
  | timeout => exact after_pure (after_pure ⟨rfl, rfl, rfl, nofun⟩)
  | ready hit =>
    refine after_syscall fun accepted => ?_
    cases accepted with
    | none => exact after_pure (after_pure ⟨rfl, rfl, rfl, nofun⟩)
    | some conn =>
      refine after_ite (fun _ => after_pure (after_pure ⟨rfl, rfl, rfl, nofun⟩)) fun _ => after_pure (after_setConf ?_)
      refine after_pure ⟨rfl, rfl, rfl, fun _ a => ?_⟩
      exact .quiet_cons rfl (.quiet_cons rfl (.acquire rfl a))

theorem after_startData (s : Proc) : (startData s).After (fun tr s' stat =>
    s'.conf.filec.mfile.handle = s.conf.filec.mfile.handle ∧ s'.conf.cntlSock = s.conf.cntlSock ∧ s'.conf.connSock = s.conf.connSock ∧
      (stat = .success → ∀ a, Moves handleEffect a tr ({.sock s'.conf.dataSock} + a))) := by
  unfold startData
  refine after_conf (after_ite (fun hne => after_pure ⟨rfl, rfl, rfl, fun h => absurd h hne⟩) fun _ => ?_)
  refine after_bind_of (after_initUdpSocket _ _ _ _ _ s) ?_
  rintro tr _ ⟨stat, sock⟩ ⟨rfl, hopen⟩
  refine after_setConf (after_pure ⟨rfl, rfl, rfl, fun h => ?_⟩)
  rw [List.append_nil]
  exact hopen h

/-! ## Files -/

theorem after_mfopen (path : Bytes) (s : Proc) : (mfopen path .rplus s).After (fun tr s' stream => s' = s ∧
    (stream.isOpen = true → ∃ f n, stream.handle = (some f, true, n) ∧
      ∀ a, Moves handleEffect a tr ({.mapping n} + ({.file f} + a))) ∧
    (stream.isOpen = false → ∀ a, Moves handleEffect a tr a)) := by
  unfold mfopen
  refine after_syscall fun opened => ?_
  cases opened with
  | none => exact after_pure ⟨rfl, nofun, fun _ a => .quiet_cons rfl (.nil a)⟩
  | some f =>
    refine after_syscall fun info => ?_
    cases info with
    | none =>
      refine after_syscall fun closed => after_pure ⟨rfl, nofun, fun _ a => ?_⟩
      exact .acquire_cons rfl (.quiet_cons rfl (.release rfl a))
    | some stSize =>
      refine after_syscall fun mapped => ?_
      cases mapped with
      | none =>
        refine after_syscall fun closed => after_pure ⟨rfl, nofun, fun _ a => ?_⟩
        exact .acquire_cons rfl (.quiet_cons rfl (.quiet_cons rfl (.release rfl a)))
      | some buf =>
        refine after_pure ⟨rfl, fun _ => ⟨f, stSize, rfl, fun a => ?_⟩, nofun⟩
        exact .acquire_cons rfl (.quiet_cons rfl (.acquire rfl _))

/-- A file that is made is left open. -/
theorem after_createFile (path : Bytes) (size : Nat) (s : Proc) : (createFile path size s).After (fun tr s' stat => s' = s ∧
    (stat = .success → ∃ f, ∀ a, Moves handleEffect a tr ({.file f} + a)) ∧
    (stat ≠ .success → ∀ a, Moves handleEffect a tr a)) := by
  unfold createFile
  refine after_syscall fun opened => ?_
  cases opened with
  | none => exact after_pure ⟨rfl, nofun, fun _ a => .quiet_cons rfl (.nil a)⟩
  | some f =>
    refine after_ite (fun _ => after_syscall fun closed => after_pure ⟨rfl, nofun, fun _ a => ?_⟩) fun _ => ?_
    · exact .acquire_cons rfl (.release rfl a)
    refine after_syscall fun info => ?_
    cases info with
    | none =>
      refine after_syscall fun closed => after_pure ⟨rfl, nofun, fun _ a => ?_⟩
      exact .acquire_cons rfl (.quiet_cons rfl (.release rfl a))
    | some avail =>
      refine after_ite (fun _ => after_syscall fun closed => after_pure ⟨rfl, nofun, fun _ a => ?_⟩) fun _ => ?_
      · exact .acquire_cons rfl (.quiet_cons rfl (.release rfl a))
      refine after_syscall fun truncated => ?_
      refine after_ite (fun _ => after_syscall fun closed => after_pure ⟨rfl, nofun, fun _ a => ?_⟩) fun _ => ?_
      · exact .acquire_cons rfl (.quiet_cons rfl (.quiet_cons rfl (.release rfl a)))
      · exact after_pure ⟨rfl, fun _ => ⟨f, fun a => .acquire_cons rfl (.quiet (by simp [handleEffect]) _)⟩, fun h => absurd rfl h⟩

/-- `start_file_stream` after it has made the file or found its size. -/
def openStream (path : Bytes) : Prog Status := do
  let mfile ← mfopen path .rplus
  if !mfile.isOpen then return .nomfile
  setConf (fun c => { c with filec := { c.filec with mfile := mfile } })
  match extractFileName path (path.length + 1) with
  | none => return .invpath
  | some filename =>
    setConf (fun c => { c with filec := { c.filec with name := sstrncpy filename maxFileNameSize } })
    return .success

theorem after_openStream (path : Bytes) (s : Proc) : (openStream path s).After (fun tr s' stat =>
    s'.conf.cntlSock = s.conf.cntlSock ∧ s'.conf.connSock = s.conf.connSock ∧
    (stat = .success → ∃ f n, s'.conf.filec.mfile.handle = (some f, true, n) ∧
      ∀ a, Moves handleEffect a tr ({.mapping n} + ({.file f} + a))) ∧
    (stat ≠ .success → s'.conf.filec.mfile.handle = s.conf.filec.mfile.handle ∧ ∀ a, Moves handleEffect a tr a)) := by
  unfold openStream
  refine after_bind_of (after_mfopen path s) ?_
  rintro tr _ stream ⟨rfl, hopen, hfail⟩
  refine after_ite (fun h => after_pure ⟨rfl, rfl, nofun, fun _ => ⟨rfl, ?_⟩⟩) fun h => after_setConf ?_
  · rw [List.append_nil]
    exact hfail (by simpa using h)
  · -- the terminator of the path counts, so there is a name
    have hname : extractFileName path (path.length + 1) = some (path.drop (extractFileNameFrom path path.length)) := rfl
    rw [hname]
    refine after_setConf (after_pure ⟨rfl, rfl, fun _ => ?_, fun h => absurd rfl h⟩)
    rw [List.append_nil]
    exact hopen (by simpa using h)

theorem startFileStream_eq (path : Bytes) (mode : Fmode) : startFileStream path mode =
    prepareFile path mode >>= fun stat => if stat ≠ .success then pure stat else openStream path := rfl

/-! ## Closing -/

theorem after_mfclose (stream : MFile) (s : Proc) : (mfclose stream s).After (fun tr s' closed => s' = s ∧ (closed = true →
    ∃ f n, stream.handle = (some f, true, n) ∧ tr = [⟨s, .munmap n, true⟩, ⟨s, .fclose f, true⟩])) := by
  obtain ⟨file, isOpen, size, pos, buf⟩ := stream
  cases isOpen with
  | false =>
    cases file with
    | none => exact ⟨rfl, nofun⟩
    | some f => exact fun _ => ⟨rfl, nofun⟩
  | true =>
    intro unmapped
    cases file with
    | none => cases unmapped <;> exact ⟨rfl, nofun⟩
    | some f =>
      intro closed
      refine ⟨rfl, fun h => ⟨f, size, rfl, ?_⟩⟩
      obtain ⟨rfl, rfl⟩ : unmapped = true ∧ closed = true := Bool.and_eq_true_iff.1 h
      rfl

theorem after_endFileStream (s : Proc) : (endFileStream s).After (fun tr s' stat => s' = s ∧ (stat = .success →
    ∃ f n, s.conf.filec.mfile.handle = (some f, true, n) ∧ tr = [⟨s, .munmap n, true⟩, ⟨s, .fclose f, true⟩])) := by
  unfold endFileStream
  refine after_conf (after_bind_of (after_mfclose _ s) ?_)
  rintro tr _ closed ⟨rfl, hclosed⟩
  refine after_ite (fun _ => after_pure ⟨rfl, nofun⟩) fun h => after_pure ⟨rfl, fun _ => ?_⟩
  rw [List.append_nil]
  exact hclosed (by simpa using h)

theorem after_closeSocket (sock : Sockfd) (s : Proc) : (closeSocket sock s).After (fun tr s' stat => s' = s ∧
    (stat = .success → tr = [⟨s, .close sock, true⟩])) := by
  unfold closeSocket
  refine after_syscall fun ok => ?_
  cases ok with
  | false => exact after_ite (fun _ => after_pure ⟨rfl, nofun⟩) fun h => absurd rfl h
  | true => exact after_ite nofun fun _ => after_pure ⟨rfl, fun _ => rfl⟩

theorem handleEffect_close {s : Proc} (hs : s.phase ≠ .setup) (sock : Sockfd) (ok : Bool) :
    handleEffect ⟨s, .close sock, ok⟩ = some (.release (.sock sock)) := if_neg hs

theorem moves_endFileStream (s : Proc) (f : FileId) (n : Nat) (a : Multiset Resource) :
    Moves handleEffect ({.mapping n} + ({.file f} + a)) [⟨s, .munmap n, true⟩, ⟨s, .fclose f, true⟩] a :=
  (Moves.release rfl _).append (Moves.release rfl a)

/-! ## The sender -/

theorem after_prepareFile_mrd (path : Bytes) (s : Proc) : (prepareFile path .mrd s).After (fun tr _ _ =>
    ∀ a, Moves handleEffect a tr a) := by
  unfold prepareFile
  refine after_syscall fun statbuf => ?_
  cases statbuf with
  | none => exact after_pure fun a => .quiet_cons rfl (.nil a)
  | some stSize => exact after_setConf (after_pure fun a => .quiet_cons rfl (.nil a))

theorem after_pushPhases (Γ : Libcrc) (rounds : Nat) (s : Proc) : (pushPhases Γ rounds startData s).After (fun tr s' stat =>
    stat = .success → s'.conf.filec.mfile.handle = s.conf.filec.mfile.handle ∧ s'.conf.cntlSock = s.conf.cntlSock ∧
      ∀ a, Moves handleEffect a tr ({.sock s'.conf.dataSock} + a)) := by
  unfold pushPhases
  refine after_check (quiet_pushHandshake.after s) (fun _ _ _ _ hne h => absurd h hne) ?_
  rintro tr₁ s₁ ⟨hsame₁, hquiet₁⟩
  refine after_check (after_startData s₁) (fun _ _ _ _ hne h => absurd h hne) ?_
  rintro tr₂ s₂ ⟨hfile₂, hcntl₂, -, hopen⟩
  refine after_bind_of (quiet_setSegsize.after s₂) ?_
  rintro tr₃ s₃ _ ⟨hsame₃, hquiet₃⟩
  refine after_check (quiet_pushTransfer Γ rounds |>.after s₃) (fun _ _ _ _ hne h => absurd h hne) ?_
  rintro tr₄ s₄ ⟨hsame₄, hquiet₄⟩
  refine (quiet_pushVerification Γ |>.after s₄).mono ?_
  rintro tr₅ s₅ stat ⟨hsame₅, hquiet₅⟩ -
  have hdata : s₅.conf.dataSock = s₂.conf.dataSock := hsame₅.2.2.1.trans (hsame₄.2.2.1.trans hsame₃.2.2.1)
  refine ⟨?_, ?_, fun a => ?_⟩
  · rw [hsame₅.2.2.2, hsame₄.2.2.2, hsame₃.2.2.2, hfile₂, hsame₁.2.2.2]
  · rw [hsame₅.1, hsame₄.1, hsame₃.1, hcntl₂, hsame₁.1]
  · rw [hdata]
    exact (hquiet₁ a).append ((hopen rfl a).append ((hquiet₃ _).append ((hquiet₄ _).append (hquiet₅ _))))

/-- A successful run closes what it opens. -/
theorem after_startPusher (Γ : Libcrc) (rounds : Nat) (path : Bytes) (s : Proc) : (startPusher Γ rounds path s).After (fun tr _ stat =>
    stat = .success → ∀ a, Moves handleEffect a tr a) := by
  unfold startPusher
  refine after_check (P := fun tr s' stat => stat = .success → ∃ f n, s'.conf.filec.mfile.handle = (some f, true, n) ∧
    ∀ a, Moves handleEffect a tr ({.mapping n} + ({.file f} + a))) ?_ (fun _ _ _ _ hne h => absurd h hne) ?_
  · rw [startFileStream_eq]
    refine after_check (after_prepareFile_mrd path s) (fun _ _ _ _ hne h => absurd h hne) ?_
    intro tr s₁ hquiet
    refine (after_openStream path s₁).mono ?_
    rintro tr' s₂ stat ⟨-, -, hopen, -⟩ hstat
    obtain ⟨f, n, hfile, hmoves⟩ := hopen hstat
    exact ⟨f, n, hfile, fun a => (hquiet a).append (hmoves a)⟩
  intro tr₁ s₁ hfile
  obtain ⟨f, n, hfile₁, hmoves₁⟩ := hfile rfl
  refine after_check (after_startCntl true s₁) (fun _ _ _ _ hne h => absurd h hne) ?_
  rintro tr₂ s₂ ⟨hfile₂, -, hmoves₂⟩
  refine after_check (after_pushPhases Γ rounds s₂) (fun _ _ _ _ hne h => absurd h hne) ?_
  intro tr₃ s₃ hphases
  obtain ⟨hfile₃, hcntl₃, hmoves₃⟩ := hphases rfl
  refine after_enter (after_check (after_endFileStream _) (fun _ _ _ _ hne h => absurd h hne) ?_)
  rintro tr₄ _ ⟨rfl, hclosed⟩
  obtain ⟨f', n', hfile₄, rfl⟩ := hclosed rfl
  obtain ⟨rfl, rfl⟩ : f = f' ∧ n = n' := by
    have hsame := hfile₁.symm.trans (hfile₂.symm.trans (hfile₃.symm.trans hfile₄))
    simpa using hsame
  refine after_conf (after_check (after_closeSocket _ _) (fun _ _ _ _ hne h => absurd h hne) ?_)
  rintro tr₅ _ ⟨rfl, hclosed⟩
  obtain rfl := hclosed rfl
  refine (after_closeSocket _ _).mono ?_
  rintro tr₆ s₆ stat ⟨-, hclosed⟩ hstat a
  obtain rfl := hclosed hstat
  -- first the file and its mapping are given back, then the sockets
  have hopened := (hmoves₁ a).append ((hmoves₂ rfl _).append (hmoves₃ _))
  have hperm : ({.sock s₃.conf.dataSock} + ({.sock s₂.conf.cntlSock} + ({.mapping n} + ({.file f} + a))) : Multiset Resource) =
      {.mapping n} + ({.file f} + ({.sock s₂.conf.cntlSock} + ({.sock s₃.conf.dataSock} + a))) := by abel
  rw [hperm, ← hcntl₃] at hopened
  have hcntl := Moves.release (handleEffect_close (s := { s₃ with phase := .closing }) nofun s₃.conf.cntlSock true)
    ({.sock s₃.conf.dataSock} + a)
  have hdata := Moves.release (handleEffect_close (s := { s₃ with phase := .closing }) nofun s₃.conf.dataSock true) a
  have hall := hopened.append ((moves_endFileStream { s₃ with phase := .closing } f n _).append (hcntl.append hdata))
  simpa using hall

/-! ## The receiver -/

/-- What the handshake of the receiver leaves: the file is mapped and its first stream still open, or nothing is mapped. -/
def Received (tr : List Event) (s' : Proc) : Prop :=
  (∃ f₁ f n, s'.conf.filec.mfile.handle = (some f, true, n) ∧
    ∀ a, Moves handleEffect a tr ({.mapping n} + ({.file f} + ({.file f₁} + a)))) ∨
  ∃ b : Multiset Resource, (∀ n, .mapping n ∉ b) ∧ ∀ a, Moves handleEffect a tr (b + a)

theorem after_startFileStream_mwr (path : Bytes) (s : Proc) : (startFileStream path .mwr s).After (fun tr s' _ =>
    s'.conf.cntlSock = s.conf.cntlSock ∧ s'.conf.connSock = s.conf.connSock ∧ Received tr s') := by
  rw [startFileStream_eq]
  refine after_bind_of (P := fun tr s' stat => s' = s ∧ (stat = .success → ∃ f, ∀ a, Moves handleEffect a tr ({.file f} + a)) ∧
    (stat ≠ .success → ∀ a, Moves handleEffect a tr a)) (after_conf (after_createFile path _ s)) ?_
  rintro tr _ stat ⟨rfl, hmade, hfail⟩
  refine after_ite (fun hne => after_pure ⟨rfl, rfl, .inr ⟨0, by simp, fun a => ?_⟩⟩) fun hstat => ?_
  · rw [List.append_nil, zero_add]
    exact hfail hne a
  · obtain ⟨f₁, hmade⟩ := hmade (Decidable.not_not.1 hstat)
    refine (after_openStream path _).mono ?_
    rintro tr' s₁ stat' ⟨hcntl, hconn, hopen, hclosed⟩
    refine ⟨hcntl, hconn, ?_⟩
    by_cases hstat' : stat' = .success
    · obtain ⟨f, n, hfile, hmoves⟩ := hopen hstat'
      exact .inl ⟨f₁, f, n, hfile, fun a => (hmade a).append (hmoves _)⟩
    · exact .inr ⟨{.file f₁}, by simp, fun a => (hmade a).append ((hclosed hstat').2 _)⟩

theorem Received.append_quiet {s₁ s₂ : Proc} {tr tr' : List Event} (h : Received tr s₁) (hsame : SameHandles s₁ s₂)
    (hquiet : ∀ a, Moves handleEffect a tr' a) : Received (tr ++ tr') s₂ := by
  rcases h with ⟨f₁, f, n, hfile, hmoves⟩ | ⟨b, hb, hmoves⟩
  · exact .inl ⟨f₁, f, n, hsame.2.2.2.trans hfile, fun a => (hmoves a).append (hquiet _)⟩
  · exact .inr ⟨b, hb, fun a => (hmoves a).append (hquiet _)⟩

theorem Received.quiet_append {s : Proc} {tr tr' : List Event} (h : Received tr' s) (hquiet : ∀ a, Moves handleEffect a tr a) :
    Received (tr ++ tr') s := by
  rcases h with ⟨f₁, f, n, hfile, hmoves⟩ | ⟨b, hb, hmoves⟩
  · exact .inl ⟨f₁, f, n, hfile, fun a => (hquiet a).append (hmoves a)⟩
  · exact .inr ⟨b, hb, fun a => (hquiet a).append (hmoves a)⟩

theorem quiet_pullSendHeader (sock : Sockfd) (args : SendArgs) (timeout : Int) : Quiet (pullSendHeader sock args timeout) :=
  fun _ => within_pullSendHeader (fun _ _ _ h => h) sock args timeout

theorem quiet_pushRecvHeader (sock : Sockfd) (packet : RecvPacket) (timeout : Int) : Quiet (pushRecvHeader sock packet timeout) :=
  fun _ => within_pushHeader (fun _ _ _ h => h) sock packet.bytes timeout

theorem after_pullHandshake (garbage : SendArgs) (s : Proc) : (pullHandshake garbage s).After (fun tr s' stat => stat = .success →
    s'.conf.cntlSock = s.conf.cntlSock ∧ s'.conf.connSock = s.conf.connSock ∧ Received tr s') := by
  unfold pullHandshake
  refine after_enter (after_conf (after_bind_of ((quiet_pullSendHeader _ _ _).after _) ?_))
  rintro tr₁ s₁ ⟨stat, header⟩ ⟨hsame₁, hquiet₁⟩
  refine after_ite (fun hne => after_pure fun h => absurd h hne) fun _ => after_ite (fun _ => ?_) fun _ => after_setConf (after_conf ?_)
  · -- nothing is made
    refine ((quiet_pushRecvHeader _ _ _).after s₁).mono ?_
    rintro tr₂ s₂ stat ⟨hsame₂, hquiet₂⟩ -
    refine ⟨hsame₂.1.trans hsame₁.1, hsame₂.2.1.trans hsame₁.2.1, .inr ⟨0, by simp, fun a => ?_⟩⟩
    rw [zero_add]
    exact (hquiet₁ a).append (hquiet₂ a)
  · refine after_bind_of (after_startFileStream_mwr _ _) ?_
    rintro tr₂ s₂ made ⟨hcntl₂, hconn₂, hmade⟩
    refine after_bind_of ((quiet_pushRecvHeader _ _ _).after s₂) ?_
    rintro tr₃ s₃ stat ⟨hsame₃, hquiet₃⟩
    refine after_ite (fun hne => after_pure fun h => absurd h hne) fun _ => after_setConf (after_pure fun _ => ?_)
    refine ⟨hsame₃.1.trans (hcntl₂.trans hsame₁.1), hsame₃.2.1.trans (hconn₂.trans hsame₁.2.1), ?_⟩
    rw [List.append_nil]
    have hreceived := hmade.append_quiet hsame₃ hquiet₃
    exact hreceived.quiet_append hquiet₁

theorem after_pullPhases (Γ : Libcrc) (garbage : SendArgs) (rounds : Nat) (s : Proc) :
    (pullPhases Γ garbage rounds startData s).After (fun tr s' stat => stat = .success →
      s'.conf.cntlSock = s.conf.cntlSock ∧ s'.conf.connSock = s.conf.connSock ∧ ∃ tr₁ tr₂, tr = tr₁ ++ tr₂ ∧ Received tr₁ s' ∧
        ∀ a, Moves handleEffect a tr₂ ({.sock s'.conf.dataSock} + a)) := by
  unfold pullPhases
  refine after_check (after_pullHandshake garbage s) (fun _ _ _ _ hne h => absurd h hne) ?_
  intro tr₁ s₁ hhand
  obtain ⟨hcntl₁, hconn₁, hreceived⟩ := hhand rfl
  refine after_check (after_startData s₁) (fun _ _ _ _ hne h => absurd h hne) ?_
  rintro tr₂ s₂ ⟨hfile₂, hcntl₂, hconn₂, hopen⟩
  refine after_bind_of (quiet_setSegsize.after s₂) ?_
  rintro tr₃ s₃ _ ⟨hsame₃, hquiet₃⟩
  refine after_check (quiet_pullTransfer Γ rounds |>.after s₃) (fun _ _ _ _ hne h => absurd h hne) ?_
  rintro tr₄ s₄ ⟨hsame₄, hquiet₄⟩
  refine (quiet_pullVerification Γ garbage |>.after s₄).mono ?_
  rintro tr₅ s₅ stat ⟨hsame₅, hquiet₅⟩ -
  have hfile : s₅.conf.filec.mfile.handle = s₁.conf.filec.mfile.handle := by
    rw [hsame₅.2.2.2, hsame₄.2.2.2, hsame₃.2.2.2, hfile₂]
  have hdata : s₅.conf.dataSock = s₂.conf.dataSock := hsame₅.2.2.1.trans (hsame₄.2.2.1.trans hsame₃.2.2.1)
  refine ⟨?_, ?_, tr₁, _, rfl, ?_, fun a => ?_⟩
  · rw [hsame₅.1, hsame₄.1, hsame₃.1, hcntl₂, hcntl₁]
  · rw [hsame₅.2.1, hsame₄.2.1, hsame₃.2.1, hconn₂, hconn₁]
  · rcases hreceived with ⟨f₁, f, n, hmapped, hmoves⟩ | hnone
    · exact .inl ⟨f₁, f, n, hfile.trans hmapped, hmoves⟩
    · exact .inr hnone
  · rw [hdata]
    exact (hopen rfl a).append ((hquiet₃ _).append ((hquiet₄ _).append (hquiet₅ _)))

/-- A successful run leaves a stream open, or unmaps what it has not mapped. -/
theorem after_startPuller (Γ : Libcrc) (garbage : SendArgs) (rounds : Nat) (c : InitConfig) (opened : Multiset Resource) :
    (startPuller Γ garbage rounds ⟨c, .setup⟩).After (fun tr _ stat => stat = .success →
      replay handleEffect opened tr ≠ some opened) := by
  unfold startPuller
  refine after_check (after_startCntl false _) (fun _ _ _ _ hne h => absurd h hne) ?_
  rintro tr₁ s₁ ⟨-, hphase₁, hmoves₁⟩
  refine after_check (after_acceptCntl _ s₁) (fun _ _ _ _ hne h => absurd h hne) ?_
  rintro tr₂ s₂ ⟨-, hcntl₂, hphase₂, hmoves₂⟩
  refine after_conf (after_check (after_closeSocket _ s₂) (fun _ _ _ _ hne h => absurd h hne) ?_)
  rintro tr₃ s₃ ⟨rfl, hclosed⟩
  obtain rfl := hclosed rfl
  refine after_check (after_pullPhases Γ garbage rounds _) (fun _ _ _ _ hne h => absurd h hne) ?_
  intro tr₄ s₄ hphases
  obtain ⟨hcntl₄, hconn₄, tr₅, tr₆, rfl, hreceived, hdata⟩ := hphases rfl
  unfold pullClosing
  refine after_enter (after_check (after_endFileStream _) (fun _ _ _ _ hne h => absurd h hne) ?_)
  rintro tr₇ _ ⟨rfl, hclosed⟩
  obtain ⟨f', n', hfile, rfl⟩ := hclosed rfl
  refine after_conf (after_check (after_closeSocket _ _) (fun _ _ _ _ hne h => absurd h hne) ?_)
  rintro tr₈ _ ⟨rfl, hclosed⟩
  obtain rfl := hclosed rfl
  refine after_check (after_closeSocket _ _) (fun _ _ _ _ hne h => absurd h hne) ?_
  rintro tr₉ _ ⟨rfl, hclosed⟩
  obtain rfl := hclosed rfl
  refine (after_closeSocket _ _).mono ?_
  rintro tr₁₀ s₁₀ stat ⟨-, hclosed⟩ hstat
  obtain rfl := hclosed hstat
  have hcast : ∀ a, Moves handleEffect a [⟨s₃, .close s₃.conf.castSock, true⟩] a :=
    fun a => .quiet_cons (if_pos (hphase₂.trans hphase₁)) (.nil a)
  have hsocks := (hmoves₁ rfl opened).append ((hmoves₂ rfl _).append (hcast _))
  rcases hreceived with ⟨f₁, f, n, hmapped, hmoves₅⟩ | ⟨b, hb, hmoves₅⟩
  · -- all is closed but the stream the file was made with
    obtain ⟨rfl, rfl⟩ : f = f' ∧ n = n' := by
      have hsame := hmapped.symm.trans hfile
      simpa using hsame
    have hopened := hsocks.append ((hmoves₅ _).append (hdata _))
    have hperm : ({.sock s₄.conf.dataSock} + ({.mapping n} + ({.file f} + ({.file f₁} + ({.sock s₃.conf.connSock} +
          ({.sock s₁.conf.cntlSock} + opened))))) : Multiset Resource) =
        {.mapping n} + ({.file f} + ({.sock s₁.conf.cntlSock} + ({.sock s₄.conf.dataSock} + ({.sock s₃.conf.connSock} +
          ({.file f₁} + opened))))) := by abel
    rw [hperm, ← hcntl₂, ← hcntl₄, ← hconn₄] at hopened
    have hclose (fd : Sockfd) (a : Multiset Resource) : Moves handleEffect ({.sock fd} + a)
        [⟨{ s₄ with phase := .closing }, .close fd, true⟩] a :=
      .release (handleEffect_close (s := { s₄ with phase := .closing }) nofun fd true) a
    have hall := hopened.append ((moves_endFileStream { s₄ with phase := .closing } f n _).append
      ((hclose _ _).append ((hclose _ _).append (hclose _ _))))
    have hreplay := hall.replayed
    simp only [List.append_assoc, List.cons_append, List.nil_append] at hreplay ⊢
    rw [hreplay]
    exact fun h => Multiset.singleton_ne_zero _ (add_eq_right.1 (Option.some.inj h))
  · -- there is no mapping to unmap
    have hopened := (hsocks.append ((hmoves₅ _).append (hdata _))).replayed
    have hcount : ({.sock s₄.conf.dataSock} + (b + ({.sock s₃.conf.connSock} + ({.sock s₁.conf.cntlSock} + opened))) :
        Multiset Resource).count (.mapping n') = opened.count (.mapping n') := by
      simp [Multiset.count_eq_zero.2 (hb n')]
    have hclosing : ∀ e ∈ ([⟨{ s₄ with phase := .closing }, .fclose f', true⟩, ⟨{ s₄ with phase := .closing }, .close s₄.conf.cntlSock, true⟩,
        ⟨{ s₄ with phase := .closing }, .close s₄.conf.dataSock, true⟩, ⟨{ s₄ with phase := .closing }, .close s₄.conf.connSock, true⟩] :
        List Event), ∀ r, handleEffect e ≠ some (.acquire r) := by
      simp [handleEffect]
    have hall := replay_release_ne hopened (e := ⟨{ s₄ with phase := .closing }, .munmap n', true⟩) rfl hcount hclosing
    simpa using hall

theorem moves_of_pusher {tr : List Event} (h : SuccessfulRun .pusher tr) (a : Multiset Resource) : Moves handleEffect a tr a := by
  obtain ⟨Γ, rounds, path, c, s, hrun⟩ := h
  exact Tree.after_iff.1 (after_startPusher Γ rounds path ⟨c, .setup⟩) tr s _ hrun rfl a

theorem replay_of_puller {tr : List Event} (h : SuccessfulRun .puller tr) (opened : Multiset Resource) :
    replay handleEffect opened tr ≠ some opened := by
  obtain ⟨Γ, garbage, rounds, c, s, hrun⟩ := h
  exact Tree.after_iff.1 (after_startPuller Γ garbage rounds c opened) tr s _ hrun rfl

end HandlesAux

open HandlesAux in
/-- A number of successful runs, one after the other, leave open what was open before exactly when none of them is a run of
`start_puller`. -/
theorem transfers_keep_handles_iff (opened : Multiset Resource) (runs : List (Party × List Event))
    (hruns : ∀ r ∈ runs, SuccessfulRun r.1 r.2) : KeepsHandles opened (runs.map Prod.snd) ↔ ∀ r ∈ runs, r.1 = .pusher := by
  constructor
  · rintro hkeeps ⟨party, tr⟩ hmem
    cases party with
    | pusher => rfl
    | puller =>
      -- the handles before that run and after it
      obtain ⟨before, after, rfl⟩ := List.append_of_mem hmem
      have hbefore := hkeeps before.length
      have hafter := hkeeps (before.length + 1)
      rw [List.map_append, List.map_cons] at hbefore hafter
      rw [List.take_left' (List.length_map _)] at hbefore
      rw [List.take_append, List.take_of_length_le (by simp), List.length_map, Nat.add_sub_cancel_left, List.take_succ_cons,
        List.take_zero, List.flatten_append, List.flatten_singleton, replay_append, hbefore] at hafter
      exact absurd hafter (replay_of_puller (hruns _ hmem) opened)
  · intro hall n
    refine (Moves.flatten fun tr htr => ?_).replayed
    obtain ⟨⟨party, tr⟩, hmem, rfl⟩ := List.mem_map.1 (List.mem_of_mem_take htr)
    obtain rfl : party = .pusher := hall _ hmem
    exact moves_of_pusher (hruns _ hmem) opened

namespace HandleRun

/-- Every call succeeds and what is opened gets the next number; the control channel delivers the bytes. -/
def env (w : Bytes × Nat) (s : Proc) : (c : Call) → c.Answer × Bytes × Nat
  | .socket _ => (some w.2, w.1, w.2 + 1)
  | .fopen _ _ => (some w.2, w.1, w.2 + 1)
  | .accept _ => (some { fd := w.2, inet := true, ip := { a := 1, b := 1, c := 1, d := 1 }, port := 1 }, w.1, w.2 + 1)
  | c => ((Sample.env w.1 s c).1, (Sample.env w.1 s c).2, w.2)

/-- The status of a transfer in this system, and what it leaves open. -/
def leaves (stream : Bytes) (t : Tree Status) : Option Status × Option (Multiset Resource) :=
  ((play env (stream, 3) t).2.map Prod.snd, replay handleEffect 0 (play env (stream, 3) t).1)

theorem run_of_leaves {stream : Bytes} {t : Tree Status} {left : Option (Multiset Resource)}
    (h : leaves stream t = (some .success, left)) : ∃ tr s, Run t tr s .success ∧ replay handleEffect 0 tr = left := by
  obtain ⟨hstat, hleft⟩ := Prod.mk.inj h
  obtain ⟨⟨s, stat⟩, hplay, rfl⟩ := Option.map_eq_some_iff.1 hstat
  exact ⟨_, s, run_play env hplay, hleft⟩

/-- What a receiver answers that accepts all: the offer, one chunk and the verification. -/
def acks : Bytes := (List.replicate 4 (packRecvPacket 1 0 1).bytes).flatten

/-- A sender of one byte. -/
def sender : Tree Status := startPusher Sample.zero 2 [97] ⟨{ Sample.receiver with chsize := 2 }, .setup⟩

/-- A receiver of that byte. -/
def receiver : Tree Status := startPuller Sample.zero Sample.blank 2 ⟨Sample.receiver, .setup⟩

end HandleRun

open HandleRun in
/-- Two runs of a sender. -/
theorem transfers_keep_handles_two : ∃ tr, SuccessfulRun .pusher tr ∧ KeepsHandles 0 [tr, tr] := by
  have hleaves : leaves acks sender = (some .success, some 0) := by decide +kernel
  obtain ⟨tr, s, hrun, -⟩ := run_of_leaves hleaves
  have hpusher : SuccessfulRun .pusher tr := ⟨_, _, _, _, s, hrun⟩
  have hkeeps := transfers_keep_handles_iff 0 [(.pusher, tr), (.pusher, tr)] (by simpa using hpusher)
  exact ⟨tr, hpusher, hkeeps.2 (by simp)⟩

open HandleRun in
/-- A receiver gets a file and returns SUCCESS, and the stream its file was made with is open. -/
theorem receiver_leaves_file_open : ∃ tr, SuccessfulRun .puller tr ∧ replay handleEffect 0 tr = some {.file 5} ∧
    ¬KeepsHandles 0 [tr] := by
  have hleaves : leaves (MismatchRun.stream 0) receiver = (some .success, some {.file 5}) := by decide +kernel
  obtain ⟨tr, s, hrun, hleft⟩ := run_of_leaves hleaves
  refine ⟨tr, ⟨_, _, _, _, s, hrun⟩, hleft, fun hkeeps => ?_⟩
  have hone := hkeeps 1
  rw [List.take_succ_cons, List.take_zero, List.flatten_singleton, hleft] at hone
  exact absurd (Option.some.inj hone) (Multiset.singleton_ne_zero _)

end RufShare
