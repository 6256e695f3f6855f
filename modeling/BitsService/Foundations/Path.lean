import BitsService.Foundations.Bytes
import BitsService.Lib.LexicalPath
import Mathlib.Data.List.DropRight

/-! # `path/filepath`

A path text is read as a walk, one move for each segment between slashes. -/
namespace BitsService
open GoLib.LexicalPath
set_option autoImplicit false

abbrev Path := Loc Bytes

/-- The move of one segment: none for an empty one and for a dot. -/
def segmentMoves (segment : Bytes) : List (Move Bytes) :=
  if segment = [] ∨ segment = ascii "." then []
  else if segment = ascii ".." then [.up]
  else [.into segment]

/-- The moves of a text whose first segment has begun with `segment`. -/
def movesFrom (segment : Bytes) : Bytes → List (Move Bytes)
  | [] => segmentMoves segment
  | c :: s =>
    if c = slash then segmentMoves segment ++ movesFrom [] s else movesFrom (segment ++ [c]) s

def movesOf (path : Bytes) : List (Move Bytes) := movesFrom [] path

/-- `filepath.Clean` of a text that is not empty. -/
def cleanPath (path : Bytes) : Path :=
  (if path.head? = some slash then ⟨.root, []⟩ else Loc.here : Path).walk (movesOf path)

/-- `filepath.Base`: what comes after the last slash, less the slashes that the path ends with. -/
def filepathBase (path : Bytes) : Bytes :=
  if path = [] then ascii "."
  else
    let last := (path.rdropWhile (· = slash)).rtakeWhile (· ≠ slash)
    if last = [] then [slash] else last

/-- `filepath.Join(pre, path)` with a `pre` that is not empty. -/
def filepathJoin (pre path : Bytes) : Path :=
  if path = [] then cleanPath pre else cleanPath (pre ++ slash :: path)

theorem movesFrom_append_slash (segment s t : Bytes) :
    movesFrom segment (s ++ slash :: t) = movesFrom segment s ++ movesOf t := by
  induction s generalizing segment with
  | nil => simp [movesFrom, movesOf]
  | cons c s ih =>
    by_cases hc : c = slash
    · simp [movesFrom, hc, ih]
    · simp [movesFrom, hc, ih]

theorem movesOf_append_slash (s t : Bytes) : movesOf (s ++ slash :: t) = movesOf s ++ movesOf t :=
  movesFrom_append_slash [] s t

theorem movesOf_nil : movesOf [] = [] := rfl

theorem filepathJoin_eq_walk {pre : Bytes} (h : pre ≠ []) (path : Bytes) :
    filepathJoin pre path = (cleanPath pre).walk (movesOf path) := by
  by_cases hp : path = []
  · simp [filepathJoin, hp, movesOf_nil]
  · obtain ⟨c, pre', rfl⟩ := List.exists_cons_of_ne_nil h
    have hmoves := movesOf_append_slash (c :: pre') path
    simp only [List.cons_append] at hmoves
    simp only [filepathJoin, if_neg hp, cleanPath, List.cons_append, List.head?_cons, hmoves,
      Loc.walk_append]
    rfl

def IsPlainName (name : Bytes) : Prop :=
  slash ∉ name ∧ name ≠ [] ∧ name ≠ ascii "." ∧ name ≠ ascii ".."

theorem movesFrom_of_no_slash (segment name : Bytes) (h : slash ∉ name) :
    movesFrom segment name = segmentMoves (segment ++ name) := by
  induction name generalizing segment with
  | nil => simp [movesFrom]
  | cons c s ih =>
    simp only [List.mem_cons, not_or] at h
    have hc : c ≠ slash := fun hc => h.1 hc.symm
    rw [movesFrom, if_neg hc, ih _ h.2, List.append_assoc]
    rfl

theorem IsPlainName.movesOf_eq {name : Bytes} (h : IsPlainName name) :
    movesOf name = [.into name] := by
  obtain ⟨hs, hne, hdot, hdots⟩ := h
  rw [movesOf, movesFrom_of_no_slash [] name hs, List.nil_append]
  simp [segmentMoves, hne, hdot, hdots]

/-- The text of a cleaned path, as `filepath.Join` returns it. -/
def pathText (path : Path) : Bytes :=
  match path.anchor with
  | .root => slash :: [slash].intercalate path.names
  | .up n =>
    let segments := List.replicate n (ascii "..") ++ path.names
    if segments = [] then ascii "." else [slash].intercalate segments

example : pathText (filepathJoin (ascii "data/") (ascii "../x//./y")) = ascii "x/y" := by decide

/-! ## Clean relative paths -/

/-- A path of plain names, which is empty when there are none. -/
structure RelativePath where
  names : List Bytes
  plain : ∀ name ∈ names, IsPlainName name
  deriving DecidableEq

def RelativePath.text (p : RelativePath) : Bytes := [slash].intercalate p.names

theorem movesOf_intercalate {names : List Bytes} (h : ∀ name ∈ names, IsPlainName name) :
    movesOf ([slash].intercalate names) = names.map .into := by
  induction names with
  | nil => rfl
  | cons name names ih =>
    have hname : movesOf name = [.into name] := (h name List.mem_cons_self).movesOf_eq
    have hrest := ih fun other hother => h other (List.mem_cons_of_mem _ hother)
    cases names with
    | nil => simpa using hname
    | cons other names =>
      rw [List.intercalate_cons_cons, List.append_assoc, List.singleton_append,
        movesOf_append_slash, hname, hrest]
      rfl

theorem RelativePath.text_injective : Function.Injective RelativePath.text := by
  intro p q h
  have hmoves := congrArg movesOf h
  unfold RelativePath.text at hmoves
  rw [movesOf_intercalate p.plain, movesOf_intercalate q.plain] at hmoves
  have hnames : p.names = q.names :=
    (List.map_injective_iff.mpr fun _ _ hmove => Move.into.inj hmove) hmoves
  cases p
  cases q
  cases hnames
  rfl

theorem intercalate_prefix_append (sep : Bytes) (xs ys : List Bytes) :
    sep.intercalate xs <+: sep.intercalate (xs ++ ys) := by
  induction xs with
  | nil => exact List.nil_prefix
  | cons x xs ih =>
    by_cases hxs : xs = []
    · subst hxs
      cases ys with
      | nil => exact List.prefix_rfl
      | cons y ys =>
        rw [List.intercalate_singleton, List.singleton_append, List.intercalate_cons_cons,
          List.append_assoc]
        exact List.prefix_append _ _
    · have hne : xs ++ ys ≠ [] := by simp [hxs]
      rw [List.cons_append, List.intercalate_cons_of_ne_nil hxs,
        List.intercalate_cons_of_ne_nil hne]
      exact (List.prefix_append_right_inj _).mpr ih

/-- The text of a directory begins the text of what is below it. -/
theorem RelativePath.text_below {p q : RelativePath} (h : p.names <+: q.names) :
    p.text <+: q.text := by
  obtain ⟨rest, hrest⟩ := h
  unfold RelativePath.text
  rw [← hrest]
  exact intercalate_prefix_append _ _ _

theorem filepathJoin_text {pre : Bytes} (h : pre ≠ []) (p : RelativePath) :
    filepathJoin pre p.text = (cleanPath pre).descend p.names := by
  unfold RelativePath.text
  rw [filepathJoin_eq_walk h, movesOf_intercalate p.plain, Loc.walk_map_into]

end BitsService
