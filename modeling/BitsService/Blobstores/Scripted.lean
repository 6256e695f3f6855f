import BitsService.Blobstores.Interface

/-! # A blobstore that fails by script

A map from keys to contents whose reads and writes take their outcomes from two scripts, and
succeed once these have run out. -/
namespace BitsService
open GoLib.Effect
set_option autoImplicit false

/-- What becomes of one `Get`: it fails, or its body breaks after so many bytes. -/
inductive GetOutcome where
  | ok
  | fails (e : GoError)
  | breaks (delivered : ℕ) (e : GoError)
  deriving DecidableEq

structure MapStore where
  contents : Bytes → Option Bytes
  getScript : List GetOutcome
  putScript : List (Result Unit)

namespace MapStore

def answer (content : Option Bytes) : GetOutcome → Result Body
  | .fails e => .error e
  | .ok =>
    match content with
    | none => .error .newNotFoundError
    | some content => .ok (.whole content)
  | .breaks delivered e =>
    match content with
    | none => .error .newNotFoundError
    | some content => .ok ⟨[content.take delivered], some e⟩

def get (key : Bytes) : Prog GoError MapStore (Result Body) := fun s =>
  (.returned (answer (s.contents key) (s.getScript.headD .ok)),
    { s with getScript := s.getScript.tail })

/-- A failed `Put` leaves the store as it was. -/
def put (key src : Bytes) : Prog GoError MapStore (Result Unit) := fun s =>
  match s.putScript.headD (.ok ()) with
  | .error e => (.returned (.error e), { s with putScript := s.putScript.tail })
  | .ok () => (.returned (.ok ()),
      { s with contents := Function.update s.contents key (some src)
               putScript := s.putScript.tail })

def delete (key : Bytes) : Prog GoError MapStore (Result Unit) := fun s =>
  match s.contents key with
  | none => (.returned (.error .newNotFoundError), s)
  | some _ => (.returned (.ok ()), { s with contents := Function.update s.contents key none })

def deleteDir (pre : Bytes) : Prog GoError MapStore (Result Unit) := fun s =>
  (.returned (.ok ()),
    { s with contents := fun k => if pre.isPrefixOf k then none else s.contents k })

def Faultless (s : MapStore) : Prop := s.getScript = [] ∧ s.putScript = []

end MapStore

def mapBlobstore : NoRedirectBlobstore MapStore where
  existsBlob key := fun s => (.returned (.ok (s.contents key).isSome), s)
  get := MapStore.get
  put := MapStore.put
  delete := MapStore.delete
  deleteDir := MapStore.deleteDir

/-- `inmemory.Blobstore`, with the two scripts. -/
def inmemoryBlobstore : Blobstore MapStore where
  toNoRedirectBlobstore := mapBlobstore
  headOrRedirectAsGet key := fun s =>
    (.returned (if (s.contents key).isSome then .ok [] else .error .newNotFoundError), s)
  getOrRedirect key := do
    match ← MapStore.get key with
    | .error e => pure (.error e)
    | .ok body => pure (.ok (some body, []))
  copy src dest := fun s => (.returned (.ok ()),
    { s with contents := Function.update s.contents dest (some ((s.contents src).getD [])) })

theorem run_mapBlobstore_get (key : Bytes) (s : MapStore) :
    (mapBlobstore.get key).run s =
      (.returned (MapStore.answer (s.contents key) (s.getScript.headD .ok)),
        { s with getScript := s.getScript.tail }) := rfl

theorem MapStore.answer_eq_ok {content : Option Bytes} {o : GetOutcome} {b : Body}
    (h : MapStore.answer content o = .ok b) : ∃ stored, content = some stored ∧
      (stored = [] → b.delivered = []) ∧ (b.failure = none → b.delivered = stored) := by
  cases o with
  | fails e => cases h
  | ok =>
    cases content with
    | none => cases h
    | some stored =>
      cases h
      exact ⟨stored, rfl, fun hnil => hnil ▸ Body.delivered_whole [], fun _ =>
        Body.delivered_whole stored⟩
  | breaks n e =>
    cases content with
    | none => cases h
    | some stored =>
      cases h
      exact ⟨stored, rfl, fun hnil => by simp [Body.delivered, hnil], by simp⟩

theorem run_mapBlobstore_put_ok {s : MapStore} (h : s.putScript.headD (.ok ()) = .ok ())
    (key src : Bytes) :
    (mapBlobstore.put key src).run s = (.returned (.ok ()),
      { s with contents := Function.update s.contents key (some src)
               putScript := s.putScript.tail }) := by
  unfold mapBlobstore MapStore.put Prog.run
  simp only [h]

theorem run_mapBlobstore_put_error {s : MapStore} {e : GoError}
    (h : s.putScript.headD (.ok ()) = .error e) (key src : Bytes) :
    (mapBlobstore.put key src).run s =
      (.returned (.error e), { s with putScript := s.putScript.tail }) := by
  unfold mapBlobstore MapStore.put Prog.run
  simp only [h]

theorem total_mapBlobstore_put (key src : Bytes) : Total (mapBlobstore.put key src) := by
  intro s
  cases h : s.putScript.headD (.ok ()) with
  | error e => exact ⟨_, _, run_mapBlobstore_put_error h key src⟩
  | ok u => exact ⟨_, _, run_mapBlobstore_put_ok h key src⟩

theorem keeps_put_getScript (script : List GetOutcome) (key src : Bytes) :
    Keeps (fun s : MapStore => s.getScript = script) (mapBlobstore.put key src) := by
  intro s hs
  cases h : s.putScript.headD (.ok ()) with
  | error e =>
    rw [run_mapBlobstore_put_error h]
    exact hs
  | ok u =>
    rw [run_mapBlobstore_put_ok h]
    exact hs

end BitsService
