import RufShare.Resumption.Tree
import RufShare.Resumption.Run
import RufShare.Resumption.Monitor
import RufShare.Resumption.Pair
import RufShare.Resumption.Inevitable
import RufShare.Slice
import RufShare.Types
import RufShare.Protocol
import RufShare.Calls
import RufShare.Utils
import RufShare.Mfile
import RufShare.Cntl
import RufShare.Data
import RufShare.Pusher
import RufShare.Puller
import RufShare.Broadcast
import RufShare.Lemmas.Within
import RufShare.Lemmas.Role
import RufShare.Lemmas.Receiver
import RufShare.Lemmas.Total
import RufShare.Lemmas.Delivery
import RufShare.Lemmas.Chunks
import RufShare.Theorems.Verification
import RufShare.Theorems.Offer
import RufShare.Theorems.Stream
import RufShare.Theorems.Handshake
import RufShare.Theorems.Success
import RufShare.Theorems.Tiling
import RufShare.Theorems.Codec
import RufShare.Theorems.Refusal
import RufShare.Theorems.Bounds
import RufShare.Theorems.Sync
import RufShare.Theorems.Loops
import RufShare.Theorems.Descriptors
import RufShare.Theorems.Cursor
import RufShare.Theorems.BaseName
import RufShare.Theorems.SegmentLoops
import RufShare.Logging
import RufShare.Theorems.LogRing
import RufShare.Theorems.Segments
import RufShare.Scanpair
import RufShare.Theorems.Decoded
import RufShare.Theorems.Scan
import RufShare.Resumption.Ledger
import RufShare.Theorems.Handles
import RufShare.Resumption.Retry
import RufShare.Theorems.Budget
import RufShare.Lemmas.Sender
import RufShare.Resumption.Channel
import RufShare.Parties
import RufShare.Lemmas.Joint
import RufShare.Theorems.Lockstep
import RufShare.Lemmas.Progress
import RufShare.Lemmas.Rounds
import RufShare.Lemmas.Acceptance
import RufShare.Lemmas.Ready
import RufShare.Theorems.Completion
import RufShare.Theorems.Announce
import RufShare.Theorems.Wire
import RufShare.Theorems.Replies
