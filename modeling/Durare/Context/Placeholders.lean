import Mathlib.Data.List.Basic
import Mathlib.Tactic.Common

/-!
# Context/Placeholders — the placeholders of a statement, numbered for PostgreSQL

A scanner with a quote flag and a counter numbers the question marks of a statement.  The result is
stated by positions (`rewritten`) and, for a text put together from code and literals, by its parts
(`Piece.rewrite`).  The counter has 32 bits and wraps, as a release build has it: `faithful_iff`.
-/

namespace Durare.Placeholders

open List Option

/-! ## The scanner -/

/-- The state of the loop. -/
structure Scan where
  out : String := ""
  n : Nat := 0
  inStr : Bool := false

/-- A `u32` after an increment. -/
def u32 (n : Nat) : Nat := n % 0x100000000

def Scan.next (st : Scan) (c : Char) : Scan :=
  if c = '\'' then { st with inStr := !st.inStr, out := st.out.push c }
  else if c = '?' ∧ st.inStr = false then
    { st with n := u32 (st.n + 1), out := st.out.push '$' ++ toString (u32 (st.n + 1)) }
  else { st with out := st.out.push c }

def toPgPlaceholders (sql : String) : String := (sql.toList.foldl Scan.next {}).out

/-! ## What it is for -/

/-- A question mark with an even number of quotes before it. -/
def IsPlaceholder (sql : List Char) (i : Nat) : Prop :=
  sql[i]? = some '?' ∧ (sql.take i).count '\'' % 2 = 0

instance (sql : List Char) (i : Nat) : Decidable (IsPlaceholder sql i) :=
  inferInstanceAs (Decidable (_ ∧ _))

/-- The placeholders at the first `i` positions. -/
def placeholders (sql : List Char) (i : Nat) : Nat := (List.range i).countP (IsPlaceholder sql)

/-- What stands for the character at `i`: the `k`-th placeholder is `$k`. -/
def chunk (sql : List Char) (i : Nat) : List Char :=
  if IsPlaceholder sql i then '$' :: (toString (placeholders sql (i + 1))).toList
    else sql[i]?.toList

def rewritten (sql : List Char) : List Char := (List.range sql.length).flatMap (chunk sql)

/-- A part of a text whose only quoting is literals with doubled quotes. -/
inductive Piece where
  | code (c : Char) (unquoted : c ≠ '\'')
  | literal (content : List Char)

namespace Piece

def double (c : Char) : List Char := if c = '\'' then [c, c] else [c]

def text : Piece → List Char
  | code c _ => [c]
  | literal content => '\'' :: (content.flatMap double ++ ['\''])

/-- The parts with the question marks outside the literals numbered from `n + 1` on. -/
def rewrite (n : Nat) : List Piece → List Char
  | [] => []
  | code c _ :: rest =>
    if c = '?' then '$' :: ((toString (n + 1)).toList ++ rewrite (n + 1) rest)
    else c :: rewrite n rest
  | literal content :: rest => (literal content).text ++ rewrite n rest

end Piece

/-- **The statement is rewritten as it should be**, by positions and by parts. -/
def Faithful (sql : String) : Prop :=
  (toPgPlaceholders sql).toList = rewritten sql.toList ∧
    ∀ pieces : List Piece, sql.toList = pieces.flatMap Piece.text →
      (toPgPlaceholders sql).toList = Piece.rewrite 0 pieces

/-! ## The scanner and a counter that does not wrap -/

/-- What the loop writes from a state on, with a counter that `f` keeps in its range. -/
def numbered (f : Nat → Nat) (n : Nat) (inStr : Bool) : List Char → List Char
  | [] => []
  | c :: cs =>
    if c = '\'' then c :: numbered f n (!inStr) cs
    else if c = '?' ∧ inStr = false then
      '$' :: ((toString (f (n + 1))).toList ++ numbered f (f (n + 1)) inStr cs)
    else c :: numbered f n inStr cs

/-- The placeholders from a state on. -/
def marks (inStr : Bool) : List Char → Nat
  | [] => 0
  | c :: cs =>
    if c = '\'' then marks (!inStr) cs
    else if c = '?' ∧ inStr = false then marks inStr cs + 1
    else marks inStr cs

theorem toList_foldl_next (st : Scan) (cs : List Char) :
    (cs.foldl Scan.next st).out.toList = st.out.toList ++ numbered u32 st.n st.inStr cs := by
  induction cs generalizing st with
  | nil => simp [numbered]
  | cons c cs ih =>
    rw [foldl_cons, ih, Scan.next, numbered]
    split_ifs <;> simp

theorem toList_toPgPlaceholders (sql : String) :
    (toPgPlaceholders sql).toList = numbered u32 0 false sql.toList :=
  (toList_foldl_next {} sql.toList).trans (nil_append _)

/-- **The two counters write the same as long as the small one does not wrap.**  Where it does, it
writes a `0` in the place of a `4`. -/
theorem numbered_u32_iff {n : Nat} (hn : n < 0x100000000) (inStr : Bool) (cs : List Char) :
    numbered u32 n inStr cs = numbered id n inStr cs ↔ n + marks inStr cs < 0x100000000 := by
  induction cs generalizing n inStr with
  | nil => simpa [numbered, marks] using hn
  | cons c cs ih =>
    rw [numbered, numbered, marks]
    split_ifs with hquote hmark
    · rw [cons_inj_right, ih hn]
    · by_cases hlast : n + 1 < 0x100000000
      · rw [u32, Nat.mod_eq_of_lt hlast, id, cons_inj_right, append_cancel_left_eq,
          ih hlast]
        omega
      · obtain rfl : n = 0xffffffff := by omega
        refine iff_of_false (fun h => ?_) (by omega)
        rw [cons_inj_right] at h
        have hhead := congrArg List.head? h
        have hzero : (toString (u32 (0xffffffff + 1))).toList = ['0'] := by decide +kernel
        have hwhole : (toString (id (0xffffffff + 1))).toList =
            ['4', '2', '9', '4', '9', '6', '7', '2', '9', '6'] := by decide +kernel
        rw [hzero, hwhole] at hhead
        cases hhead
    · rw [cons_inj_right, ih hn]

/-! ## Positions -/

theorem placeholders_succ (sql : List Char) (i : Nat) :
    placeholders sql (i + 1) = placeholders sql i + if IsPlaceholder sql i then 1 else 0 := by
  simp [placeholders, range_succ, countP_append, countP_cons]

section

variable (pre cs : List Char) (c : Char)

/-- Inside a literal after these characters. -/
def inStrAfter (pre : List Char) : Bool := pre.count '\'' % 2 = 1

theorem inStrAfter_concat :
    inStrAfter (pre ++ [c]) = if c = '\'' then !inStrAfter pre else inStrAfter pre := by
  rw [inStrAfter, inStrAfter, count_append]
  by_cases hquote : c = '\''
  · rw [if_pos hquote, hquote, ← decide_not, decide_eq_decide, count_singleton_self]
    omega
  · rw [if_neg hquote, count_singleton, beq_eq_false_iff_ne.mpr hquote]
    rfl

theorem isPlaceholder_append :
    IsPlaceholder (pre ++ c :: cs) pre.length ↔ c = '?' ∧ inStrAfter pre = false := by
  simp [IsPlaceholder, inStrAfter]

/-- The two readings agree from every position on: the state of the scanner there is the number of
placeholders before it, and whether the number of quotes before it is odd. -/
theorem numbered_eq :
    numbered id (placeholders (pre ++ cs) pre.length) (inStrAfter pre) cs =
      (List.range' pre.length cs.length).flatMap (chunk (pre ++ cs)) ∧
    placeholders (pre ++ cs) pre.length + marks (inStrAfter pre) cs =
      placeholders (pre ++ cs) (pre.length + cs.length) := by
  induction cs generalizing pre with
  | nil => exact ⟨rfl, rfl⟩
  | cons c cs ih =>
    obtain ⟨hchars, hmarks⟩ := ih (pre ++ [c])
    have hmark := isPlaceholder_append pre cs c
    have hat : (pre ++ c :: cs)[pre.length]? = some c := by simp
    rw [append_assoc, singleton_append, length_append, length_singleton, inStrAfter_concat,
      placeholders_succ] at hchars hmarks
    generalize pre ++ c :: cs = sql at hchars hmarks hmark hat ⊢
    rw [length_cons, range'_succ, flatMap_cons, ← hchars, numbered, marks, chunk, hat,
      placeholders_succ, Nat.add_comm cs.length, ← Nat.add_assoc, ← hmarks]
    by_cases hquote : c = '\''
    · have hno : ¬IsPlaceholder sql pre.length := by
        rw [hmark, hquote]
        exact fun h => absurd h.1 (by decide)
      simp [hquote, hno]
    · by_cases hp : IsPlaceholder sql pre.length
      · simp [hp, hmark.mp hp, Nat.add_assoc, Nat.add_comm 1]
      · simp [hquote, hp, mt hmark.mpr hp]

end

theorem rewritten_eq (sql : List Char) : rewritten sql = numbered id 0 false sql := by
  rw [rewritten, range_eq_range']
  exact (numbered_eq [] sql).1.symm

theorem marks_eq (sql : List Char) : marks false sql = placeholders sql sql.length := by
  rw [← Nat.zero_add sql.length, ← Nat.zero_add (marks false sql)]
  exact (numbered_eq [] sql).2

/-! ## Parts -/

/-- A literal is left as it is: a doubled quote leaves the scanner inside. -/
theorem numbered_literal (n : Nat) (content rest : List Char) :
    numbered id n true (content.flatMap Piece.double ++ '\'' :: rest) =
      content.flatMap Piece.double ++ '\'' :: numbered id n false rest := by
  induction content with
  | nil => simp [numbered]
  | cons c content ih =>
    rw [flatMap_cons, Piece.double]
    split_ifs with hquote
    · simp [numbered, hquote, ih]
    · simp [numbered, hquote, ih]

theorem numbered_pieces (n : Nat) (pieces : List Piece) :
    numbered id n false (pieces.flatMap Piece.text) = Piece.rewrite n pieces := by
  induction pieces generalizing n with
  | nil => rfl
  | cons piece pieces ih =>
    cases piece with
    | code c unquoted =>
      by_cases hmark : c = '?' <;> simp [Piece.text, Piece.rewrite, numbered, unquoted, hmark, ih]
    | literal content =>
      simp [Piece.text, Piece.rewrite, numbered, numbered_literal, ih]

/-! ## The counter's range -/

/-- **A statement is rewritten as it should be exactly if it has fewer than `2 ^ 32` placeholders.**
The next one would be `$4294967296` and is `$0`. -/
theorem faithful_iff (sql : String) :
    Faithful sql ↔ placeholders sql.toList sql.toList.length < 0x100000000 := by
  have hwrap := numbered_u32_iff (by decide : 0 < 0x100000000) false sql.toList
  rw [Nat.zero_add, marks_eq] at hwrap
  rw [Faithful, toList_toPgPlaceholders, rewritten_eq, ← hwrap, and_iff_left_iff_imp]
  intro hsame pieces hpieces
  rw [hsame, hpieces, numbered_pieces]

theorem marks_replicate (n : Nat) : marks false (List.replicate n '?') = n := by
  induction n with
  | zero => rfl
  | succ n ih =>
    rw [replicate_succ, marks, if_neg (by decide), if_pos ⟨rfl, rfl⟩, ih]

/-- `2 ^ 32` question marks: the last one is numbered `0`. -/
theorem last_mark_zero : ¬Faithful (String.ofList (List.replicate 0x100000000 '?')) := by
  intro h
  have hsame := h.1
  rw [toList_toPgPlaceholders, rewritten_eq, numbered_u32_iff (by decide), String.toList_ofList,
    marks_replicate] at hsame
  exact absurd hsame (by decide)

end Durare.Placeholders
