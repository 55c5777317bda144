import DeskSync.Lib.Percent

/-!
# Query strings

A query has pairs of a key and a value, both escaped, between `&`. `read` decodes the value of the first pair with a
key, and is empty where there is none; a pair that cannot be decoded is passed over. So behind pairs with other keys
the pairs that are appended are read (`find_append`, `read_render`).
-/

namespace DeskSync.Query

/-- A key and its value, as they are written. -/
abbrev Pair := List Char × List Char

def renderPair (p : Pair) : List Char := p.1 ++ '=' :: p.2

def render (ps : List Pair) : List Char := List.intercalate ['&'] (ps.map renderPair)

/-- The pair of an element; without a `=` the value is empty. -/
def split (element : List Char) : Pair := (element.takeWhile (· != '='), (element.dropWhile (· != '=')).drop 1)

/-- The decoded value of the first pair with the key; a pair that cannot be decoded is passed over. -/
def find (key : Bytes) (ps : List Pair) : Bytes :=
  (ps.findSome? fun p => if Percent.queryUnescape p.1 = some key then Percent.queryUnescape p.2 else none).getD []

def read (query : List Char) (key : Bytes) : Bytes := find key ((query.splitOn '&').map split)

/-- Both sides are escaped. -/
def Plain (p : Pair) : Prop := (∀ c ∈ p.1, Percent.queryChar c = true) ∧ ∀ c ∈ p.2, Percent.queryChar c = true

variable {p : Pair} {ps qs : List Pair} {key : Bytes}

/-- No separator is left in what is escaped. -/
theorem queryChar_ne {c : Char} (h : Percent.queryChar c = true) : c ≠ '&' ∧ c ≠ '=' ∧ c ≠ '?' ∧ c ≠ '#' := by
  refine ⟨?_, ?_, ?_, ?_⟩
  all_goals
    rintro rfl
    revert h
    decide

theorem split_renderPair (h : Plain p) : split (renderPair p) = p := by
  have hne : ∀ c ∈ p.1, (c != '=') = true := fun c hc => bne_iff_ne.2 (queryChar_ne (h.1 c hc)).2.1
  have htake : (renderPair p).takeWhile (· != '=') = p.1 := by
    rw [renderPair, List.takeWhile_append_of_pos hne, List.takeWhile_cons_of_neg (by decide), List.append_nil]
  have hdrop : (renderPair p).dropWhile (· != '=') = '=' :: p.2 := by
    rw [renderPair, List.dropWhile_append_of_pos hne, List.dropWhile_cons_of_neg (by decide)]
  rw [split, htake, hdrop, List.drop_one, List.tail_cons]

theorem render_cons_cons (p q : Pair) (ps : List Pair) :
    render (p :: q :: ps) = renderPair p ++ '&' :: render (q :: ps) := by
  simp [render, List.intercalate]

theorem render_append (hp : ps ≠ []) (hq : qs ≠ []) : render (ps ++ qs) = render ps ++ '&' :: render qs := by
  obtain ⟨q, qs, rfl⟩ := List.exists_cons_of_ne_nil hq
  induction ps with
  | nil => exact absurd rfl hp
  | cons p ps ih =>
    cases ps with
    | nil => simp [render, List.intercalate]
    | cons p' ps =>
      rw [List.cons_append, List.cons_append, render_cons_cons, ← List.cons_append, ih (List.cons_ne_nil _ _),
        render_cons_cons, List.append_assoc, List.cons_append]

theorem splitOn_render (hp : ps ≠ []) (h : ∀ p ∈ ps, Plain p) : (render ps).splitOn '&' = ps.map renderPair := by
  refine List.splitOn_intercalate '&' (fun element he => ?_) (by simpa using hp)
  obtain ⟨p, hmem, rfl⟩ := List.mem_map.1 he
  intro hamp
  rcases List.mem_append.1 hamp with hkey | hvalue
  · exact (queryChar_ne ((h p hmem).1 _ hkey)).1 rfl
  · rcases List.mem_cons.1 hvalue with heq | hvalue
    · cases heq
    · exact (queryChar_ne ((h p hmem).2 _ hvalue)).1 rfl

/-- What was written is read. -/
theorem read_render (hp : ps ≠ []) (h : ∀ p ∈ ps, Plain p) : read (render ps) key = find key ps := by
  have hsplit : (ps.map renderPair).map split = ps := by
    rw [List.map_map]
    exact (List.map_congr_left fun p hp => split_renderPair (h p hp)).trans (List.map_id ps)
  rw [read, splitOn_render hp h, hsplit]

@[simp] theorem find_nil : find key [] = [] := rfl

/-- Pairs with other keys in front are passed over. -/
theorem find_append (h : ∀ p ∈ ps, Percent.queryUnescape p.1 ≠ some key) : find key (ps ++ qs) = find key qs := by
  have hnone : ps.findSome? (fun p => if Percent.queryUnescape p.1 = some key then Percent.queryUnescape p.2 else none)
      = none := List.findSome?_eq_none_iff.2 fun p hp => if_neg (h p hp)
  rw [find, List.findSome?_append, hnone, Option.none_or, find]

/-- The first pair has the key. -/
theorem find_cons_self {k v : List Char} (hk : Percent.queryUnescape k = some key) :
    find key ((k, v) :: ps) = (Percent.queryUnescape v).getD (find key ps) := by
  rw [find, List.findSome?_cons, if_pos hk]
  cases Percent.queryUnescape v <;> rfl

theorem find_cons_ne {k v : List Char} (hk : Percent.queryUnescape k ≠ some key) :
    find key ((k, v) :: ps) = find key ps := by
  have hskip : ∀ p ∈ [(k, v)], Percent.queryUnescape p.1 ≠ some key := fun p hp => by rwa [List.mem_singleton.1 hp]
  exact find_append hskip

end DeskSync.Query
