import BitsService.Lib.Effect

/-! # Paged listings

A listing comes in pages, any of which may fail; nothing after a failed page is fetched. The pages
are handed to a body one after the other, or asked for marker by marker. -/
namespace GoLib.Paging
open GoLib.Effect
set_option autoImplicit false

variable {ε W δ α τ Marker : Type}

/-- The pages before the first one that fails. -/
def fetched : List (Except δ α) → List α
  | .ok page :: pages => page :: fetched pages
  | _ => []

def listingFailure : List (Except δ α) → Option δ
  | [] => none
  | .ok _ :: pages => listingFailure pages
  | .error e :: _ => some e

@[simp] theorem fetched_nil : fetched ([] : List (Except δ α)) = [] := rfl

@[simp] theorem fetched_ok (page : α) (pages : List (Except δ α)) :
    fetched (.ok page :: pages) = page :: fetched pages := rfl

@[simp] theorem fetched_error (e : δ) (pages : List (Except δ α)) :
    fetched (.error e :: pages) = [] := rfl

@[simp] theorem listingFailure_ok (page : α) (pages : List (Except δ α)) :
    listingFailure (.ok page :: pages) = listingFailure pages := rfl

@[simp] theorem listingFailure_error (e : δ) (pages : List (Except δ α)) :
    listingFailure (.error e :: pages) = some e := rfl

theorem listingFailure_eq_none {pages : List (Except δ α)} :
    listingFailure pages = none ↔ ∀ page ∈ pages, page.isOk = true := by
  induction pages with
  | nil => simp [listingFailure]
  | cons page pages ih =>
    cases page with
    | error e => simp [Except.isOk, Except.toBool]
    | ok page => simp [ih, Except.isOk, Except.toBool]

/-! ## Visiting the pages -/

/-- `body` is run on every page until one fails to be listed. -/
def visit (body : α → τ → Prog ε W τ) :
    List (Except δ α) → τ → Prog ε W (Option δ × τ)
  | [], t => pure (none, t)
  | .error e :: _, t => pure (some e, t)
  | .ok page :: pages, t => do
    let t ← body page t
    visit body pages t

/-- The pages by themselves, when none of them fails. -/
def forPages (body : α → τ → Prog ε W τ) : List α → τ → Prog ε W τ
  | [], t => pure t
  | page :: pages, t => do
    let t ← body page t
    forPages body pages t

theorem visit_eq (body : α → τ → Prog ε W τ) (pages : List (Except δ α)) (t : τ) :
    visit body pages t =
      forPages body (fetched pages) t >>= fun t => pure (listingFailure pages, t) := by
  induction pages generalizing t with
  | nil => rfl
  | cons page pages ih =>
    cases page with
    | error e => rfl
    | ok page =>
      simp only [visit, fetched_ok, forPages, listingFailure_ok]
      rw [Prog.bind_assoc]
      exact Prog.bind_congr _ ih

/-! ## Markers

A service that is asked for the page of a marker answers with it and with the marker of the next
one. -/

/-- From the marker `m` on, the service answers with these pages. -/
inductive Serves (next : Marker → Except δ (α × Option Marker)) : Marker → List (Except δ α) → Prop
  | last {m page} (h : next m = .ok (page, none)) : Serves next m [.ok page]
  | more {m page m' pages} (h : next m = .ok (page, some m')) (hrest : Serves next m' pages) :
      Serves next m (.ok page :: pages)
  | fails {m e} (h : next m = .error e) (rest : List (Except δ α)) :
      Serves next m (.error e :: rest)

/-- The loop over the markers, which ends with the last page or the first failure; `none` when the
fuel is used up. -/
def walk (next : Marker → Except δ (α × Option Marker)) (body : α → τ → Prog ε W τ) :
    ℕ → Marker → τ → Prog ε W (Option (Option δ × τ))
  | 0, _, _ => pure none
  | fuel + 1, m, t =>
    match next m with
    | .error e => pure (some (some e, t))
    | .ok (page, more) => do
      let t ← body page t
      match more with
      | none => pure (some (none, t))
      | some m => walk next body fuel m t

/-- The loop visits the pages that the service has, in their order, and comes to an end. -/
theorem walk_eq {next : Marker → Except δ (α × Option Marker)} {m : Marker}
    {pages : List (Except δ α)} (h : Serves next m pages) (body : α → τ → Prog ε W τ) {fuel : ℕ}
    (hfuel : pages.length ≤ fuel) (t : τ) :
    walk next body fuel m t = visit body pages t >>= fun r => pure (some r) := by
  induction h generalizing fuel t with
  | @last m page h =>
    cases fuel with
    | zero => simp at hfuel
    | succ fuel =>
      simp only [walk, h, visit]
      rw [Prog.bind_assoc]
      rfl
  | @more m page m' pages h hrest ih =>
    cases fuel with
    | zero => simp at hfuel
    | succ fuel =>
      have hfuel' : pages.length ≤ fuel := Nat.le_of_succ_le_succ hfuel
      simp only [walk, h, visit]
      rw [Prog.bind_assoc]
      exact Prog.bind_congr _ (ih hfuel')
  | fails h rest =>
    cases fuel with
    | zero => simp at hfuel
    | succ fuel =>
      simp only [walk, h]
      rfl

end GoLib.Paging
