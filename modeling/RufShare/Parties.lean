import RufShare.Puller
import RufShare.Lemmas.Within
import RufShare.Resumption.Channel
import RufShare.Resumption.Pair

/-!
# The two parties

A sender and a receiver, each running its phases of a transfer, and the network between them. The control channel is a TCP
connection: a FIFO of bytes in each direction that loses nothing, gives a `recv` any first part of what has come, and may fail a call
or take a part of what is sent. The data channel may do anything: lose datagrams, repeat, reorder, change and invent them. Of the
receiver's disk only the length of the file it makes is followed: a file has the length `ftruncate` gave it.
-/

namespace RufShare

open Resumption Slice

/-- What is between the parties: the control bytes on their way to the receiver and to the sender, and the length of the receiver's
file. -/
structure Network where
  down : Bytes
  up : Bytes
  disk : Option Nat

/-- A call of one of the parties. The sender is on the left. -/
def network : Medium Proc Call.Answer Network := fun side _ w _ c r w' =>
  match side, c, r with
  | .left, .send .stream _ buf, r => Puts buf r w.down w'.down ∧ w'.up = w.up ∧ w'.disk = w.disk
  | .left, .recv .stream _ _ peek, r => Takes peek (r.map Subtype.val) w.up w'.up ∧ w'.down = w.down ∧ w'.disk = w.disk
  | .right, .send .stream _ buf, r => Puts buf r w.up w'.up ∧ w'.down = w.down ∧ w'.disk = w.disk
  | .right, .recv .stream _ _ peek, r => Takes peek (r.map Subtype.val) w.down w'.down ∧ w'.up = w.up ∧ w'.disk = w.disk
  | .right, .ftruncate _ size, true => w' = { w with disk := some size }
  | .right, .fstat _, some size => w.disk = some size ∧ w' = w
  | _, _, _ => w' = w

/-- Nothing between the parties. -/
def Network.empty : Network := { down := [], up := [], disk := none }

/-- A sender and a receiver before the handshake, with `w` between them. The programs open the data sockets. -/
def parties {W : Type} (Γ : Libcrc) (garbage : SendArgs) (rounds rounds' : Nat) (opening opening' : Prog Status)
    (sender receiver : Proc) (w : W) : Pair Proc Call.Answer Status W :=
  { left := pushPhases Γ rounds opening sender, right := pullPhases Γ garbage rounds' opening' receiver, med := w }

/-- The states of the runs of a sender and a receiver that open their data sockets as `start_pusher` and `start_puller` do. -/
def Reachable (Γ : Libcrc) (garbage : SendArgs) (rounds rounds' : Nat) (sender receiver : Proc)
    (p : Pair Proc Call.Answer Status Network) : Prop :=
  Pair.Reaches network (parties Γ garbage rounds rounds' startData startData sender receiver .empty) p

/-! ## A network on which every call succeeds -/

/-- What is between the parties when datagrams are neither lost nor reordered: besides the control bytes the datagrams on their way,
what is to come of the transmission under way, and how many transmissions of the chunk have been altered one after the other. -/
structure Link extends Network where
  data : List Bytes
  coming : Bytes
  spoiled : Nat

/-- No byte and no datagram is between the parties. -/
def Link.empty : Link := { Network.empty with data := [], coming := [], spoiled := 0 }

/-- The bytes of the chunk a configuration is at. -/
def chunkBytes (c : InitConfig) : Bytes := slice c.filec.mfile.buf (chunkContext c).startPos (chunkContext c).chunkSize

/-- What arrives of a whole transmission of a chunk: the chunk, or, fewer than `t` times in a row, as many other bytes that have
another checksum. -/
def Transmits (Γ : Libcrc) (t : Nat) (c : InitConfig) (spoiled : Nat) (arrives : Bytes) (spoiled' : Nat) : Prop :=
  arrives.length = (chunkContext c).chunkSize ∧
  (arrives = chunkBytes c ∧ spoiled' = 0 ∨
    Γ.crc32 arrives ≠ Γ.crc32 (chunkBytes c) ∧ spoiled + 1 < t ∧ spoiled' = spoiled + 1)

/-- A datagram goes out: the next bytes of what arrives of the transmission are put in its place. -/
def Conveys (Γ : Libcrc) (t : Nat) (c : InitConfig) (buf : Bytes) (w w' : Link) : Prop :=
  ∃ arrives spoiled, (if w.coming = [] then Transmits Γ t c w.spoiled arrives spoiled else arrives = w.coming ∧ spoiled = w.spoiled) ∧
    w' = { w with data := w.data ++ [arrives.take buf.length], coming := arrives.drop buf.length, spoiled := spoiled }

/-- A call that succeeds. A `poll` for input waits until there is some, a `recv` takes all it asks for, and there is room for a file. -/
def reliable (Γ : Libcrc) (t : Nat) : Medium Proc Call.Answer Link := fun side _ w s c r w' =>
  c.Succeeds r ∧
  match side, c, r with
  | .left, .poll .stream _ .pollin _, _ => w.up ≠ [] ∧ w' = w
  | .right, .poll .stream _ .pollin _, _ => w.down ≠ [] ∧ w' = w
  | .right, .poll .dgram _ .pollin _, _ => w.data ≠ [] ∧ w' = w
  | .left, .send .stream _ buf, r => r = some buf.length ∧ w' = { w with down := w.down ++ buf }
  | .right, .send .stream _ buf, r => r = some buf.length ∧ w' = { w with up := w.up ++ buf }
  | .left, .send .dgram _ buf, r => r = some buf.length ∧ Conveys Γ t s.conf buf w w'
  | .left, .recv .stream _ size peek, r =>
    r.map Subtype.val = some (w.up.take size) ∧ w' = if peek then w else { w with up := w.up.drop size }
  | .right, .recv .stream _ size peek, r =>
    r.map Subtype.val = some (w.down.take size) ∧ w' = if peek then w else { w with down := w.down.drop size }
  | .right, .recv .dgram _ size _, r =>
    ∃ d rest, w.data = d :: rest ∧ r.map Subtype.val = some (d.take size) ∧ w' = { w with data := rest }
  | .right, .fstatvfs _, some (fBavail, fBsize) =>
    (s.conf.filec.size < 2 ^ 64 - 1 → s.conf.filec.size < fBavail * fBsize % 2 ^ 64) ∧ w' = w
  | .right, .ftruncate _ size, _ => w' = { w with disk := some size }
  | .right, .fstat _, r => r = w.disk ∧ w' = w
  | _, _, _ => w' = w

/-- A sender whose file is mapped and whose chunks can be counted. -/
structure ReadyToPush (s : Proc) : Prop where
  isOpen : s.conf.filec.mfile.isOpen = true
  mapped : s.conf.filec.mfile.size = s.conf.filec.size
  length : s.conf.filec.mfile.buf.length = s.conf.filec.size
  nonempty : 1 ≤ s.conf.filec.size
  chsize : 1 ≤ s.conf.chsize.toNat
  count : s.conf.filec.size / s.conf.chsize.toNat < 2 ^ 32 - 1

end RufShare
