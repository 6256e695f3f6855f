import BitsService.Blobstores.AzureUpload

/-! # Uploading to Google

`Put` copies the source to an object writer. Closing the writer commits what was written to it, and
it is closed on every way out. -/
namespace BitsService
open GoLib.Effect GoLib.Reading
set_option autoImplicit false

/-- `util.SafeCloser.Close`: a second call does nothing. -/
def safeClose {W : Type} (closed : Bool) (closer : Prog GoError W (Result Unit)) :
    Prog GoError W (Result Unit × Bool) :=
  if closed then pure (.ok (), true)
  else do
    let r ← closer
    pure (r, true)

/-- A bucket: its objects, and the outcomes of the coming calls, which succeed once these have run
out. -/
structure GcsBucket where
  name : Bytes
  objects : Bytes → Option Bytes
  faults : List (Option GoError)

namespace GcsBucket

/-- A call that fails changes nothing. -/
def call (effect : GcsBucket → GcsBucket) : Prog GoError GcsBucket (Result Unit) := fun g =>
  match g.faults.headD none with
  | some e => (.returned (.error e), { g with faults := g.faults.tail })
  | none => (.returned (.ok ()), effect { g with faults := g.faults.tail })

/-- The writer's `Close`. -/
def closeWriter (path written : Bytes) : Prog GoError GcsBucket (Result Unit) :=
  call fun g => { g with objects := Function.update g.objects path (some written) }

end GcsBucket

namespace GcsUpload
open GcsBucket

def bucketExists : Prog GoError GcsBucket (Result Unit) := do
  let g ← getState
  orReturn (call id) (.wrapped (ascii "Error while checking for bucket existence. Bucket '" ++
    g.name ++ ascii "'")) fun _ => pure (.ok ())

def existsBlob (path : Bytes) : Prog GoError GcsBucket (Result Bool) := do
  let g ← getState
  match g.objects path with
  | some _ => pure (.ok true)
  | none => orReturn bucketExists id fun _ => pure (.ok false)

def get (path : Bytes) : Prog GoError GcsBucket (Result Body) := do
  let g ← getState
  match g.objects path with
  | some content => pure (.ok (.whole content))
  | none => orReturn bucketExists id fun _ => pure (.error .newNotFoundError)

section Put
variable {ρ : Type} (src : Reader ρ UInt8 GoError) (path : Bytes)

def copyBufferSize : ℕ := 32 * 1024

/-- `writer.Write`, unless nothing was read. -/
def writeChunk (data : Bytes) : Prog GoError GcsBucket (Result Unit) :=
  if data = [] then pure (.ok ()) else call id

/-- `io.Copy` to the writer: the error that ended it, if it was not the end of the source, and what
has been written. -/
def copy : ℕ → ρ → Bytes → Prog GoError GcsBucket (Option (Option GoError × Bytes))
  | 0, _, _ => pure none
  | fuel + 1, s, written => do
    match ← writeChunk (src.data copyBufferSize s) with
    | .error e => pure (some (some e, written))
    | .ok () =>
      match src.error copyBufferSize s with
      | none => copy fuel (src.next copyBufferSize s) (written ++ src.data copyBufferSize s)
      | some e =>
        if e = ioEOF then pure (some (none, written ++ src.data copyBufferSize s))
        else pure (some (some e, written ++ src.data copyBufferSize s))

/-- What `Put` returns once the copy has ended, and whether it has closed the writer. -/
def finish (ended : Option GoError × Bytes) : Prog GoError GcsBucket (Result Unit × Bool) :=
  match ended with
  | (some e, _) => pure (.error (.wrapped (ascii "Path " ++ path) e), false)
  | (none, written) => do
    let (r, closed) ← safeClose false (closeWriter path written)
    pure (r.mapError (.wrapped (ascii "Path " ++ path)), closed)

def put (fuel : ℕ) (s : ρ) : Prog GoError GcsBucket (Option (Result Unit)) := do
  match ← bucketExists with
  | .error e => pure (some (.error e))
  | .ok () => do
    match ← copy src fuel s [] with
    | none => pure none
    | some ended => do
      let (r, closed) ← finish path ended
      -- the deferred call, whose error nobody sees
      let _ ← safeClose closed (closeWriter path ended.2)
      pure (some r)

end Put

end GcsUpload

end BitsService
