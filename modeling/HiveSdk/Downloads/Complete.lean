import HiveSdk.Downloads.Received
import HiveSdk.Errors.Uploads
import HiveSdk.Drive.Keys

/-!
# Complete downloads

A successful `__get_file_to_buffer` returns the size that was announced, and `put_value` puts as many bytes of its buffer in front of the new record as `__get_file_length` has announced. Both are what the download URL has sent exactly when that is as long as the announcement; nothing in the source looks.
-/

namespace HiveSdk

open Interaction OneDrive Filling

/-- What a successful download promises: `n` bytes have come, and they are the first `n` of the block. -/
def Download.Complete (d : Download) (exit : Exit) (block' : Bytes) : Prop :=
  ∀ reply ∈ d.received, ∀ n, exit = .length n →
    (reply.body.length : Int) = n ∧ block'.take n.toNat = reply.body

/-- As much has come as was announced at first. -/
def Download.Matches (d : Download) (reply : Reply) : Prop :=
  d.announced.getLast? = some (reply.body.length : Int)

section
variable {p : Process OneDriveConnect}

/-- What a put has done: if it has sent anything after a download, it is the front of the block. -/
def Sent (value : Bytes) (size : Int) (d d' : Download) : Prop :=
  ∀ reply ∈ d'.received, ∀ content ∈ d'.uploaded, 0 < size ∧ 0 ≤ cInt size
    ∧ d'.announced.getLast? = d.announced.getLast?
    ∧ content = (filled (List.replicate (cSize (size + kvEntrySize + value.length)) 0) reply.body).take
        size.toNat ++ htonl value.length ++ value

end

end HiveSdk
