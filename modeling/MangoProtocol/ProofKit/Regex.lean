import Mathlib.Computability.Language
import Mathlib.Tactic

/-! Regular expressions over characters, read from the text of an anchored pattern with classes,
groups and the postfix operators. -/

namespace ProofKit

open Computability

/-- A regular expression; a class is a list of inclusive ranges. -/
inductive Regex where
  | empty
  | set (ranges : List (Char × Char))
  | seq (first second : Regex)
  | alt (first second : Regex)
  | star (inner : Regex)
  deriving DecidableEq

namespace Regex

def opt (inner : Regex) : Regex := alt empty inner

def plus (inner : Regex) : Regex := seq inner (star inner)

def single (c : Char) : Regex := set [(c, c)]

def inRanges (ranges : List (Char × Char)) (c : Char) : Bool :=
  ranges.any fun range => decide (range.1 ≤ c ∧ c ≤ range.2)

/-- The words that match. -/
def language : Regex → Language Char
  | empty => 1
  | set ranges => {word | ∃ c, inRanges ranges c ∧ word = [c]}
  | seq first second => first.language * second.language
  | alt first second => first.language + second.language
  | star inner => KStar.kstar inner.language

/-! ### The text of a pattern -/

def parseClass : List Char → Option (List (Char × Char) × List Char)
  | [] => none
  | ']' :: rest => some ([], rest)
  | low :: '-' :: high :: rest =>
    if high = ']' then some ([(low, low), ('-', '-')], rest)
    else (parseClass rest).map fun (ranges, after) => ((low, high) :: ranges, after)
  | c :: rest => (parseClass rest).map fun (ranges, after) => ((c, c) :: ranges, after)

/-- A postfix operator, if one follows. -/
def parseOperator (inner : Regex) : List Char → Regex × List Char
  | '*' :: rest => (inner.star, rest)
  | '+' :: rest => (inner.plus, rest)
  | '?' :: rest => (inner.opt, rest)
  | rest => (inner, rest)

/-- A sequence of atoms up to a closing parenthesis, a dollar sign or the end; `fuel` is a bound on
the atoms. -/
def parseSeq : Nat → List Char → Option (Regex × List Char)
  | 0, _ => none
  | fuel + 1, chars => do
    let (inner, rest) ← match chars with
      | [] | ')' :: _ | '$' :: _ => return (empty, chars)
      | '[' :: rest => (parseClass rest).map fun (ranges, after) => (set ranges, after)
      | '(' :: '?' :: ':' :: rest =>
        match parseSeq fuel rest with
        | some (inner, ')' :: after) => some (inner, after)
        | _ => none
      | '\\' :: c :: rest => some (single c, rest)
      | c :: rest => some (single c, rest)
    let (atom, rest) := parseOperator inner rest
    let (more, after) ← parseSeq fuel rest
    return (if more = empty then atom else atom.seq more, after)

def parse (pattern : String) : Option Regex :=
  match pattern.toList with
  | '^' :: chars =>
    match parseSeq chars.length chars with
    | some (regex, ['$']) => some regex
    | _ => none
  | _ => none

/-! ### Words -/

variable {ranges : List (Char × Char)} {first second inner : Regex} {word : List Char}

theorem mem_seq : word ∈ (seq first second).language ↔
    ∃ left ∈ first.language, ∃ right ∈ second.language, left ++ right = word :=
  Language.mem_mul

theorem mem_opt : word ∈ (opt inner).language ↔ word = [] ∨ word ∈ inner.language := by
  rw [opt, language, language, Language.mem_add, Language.mem_one]

theorem mem_star : word ∈ (star inner).language ↔
    ∃ words : List (List Char), word = words.flatten ∧ ∀ part ∈ words, part ∈ inner.language :=
  Language.mem_kstar

theorem mem_star_set : word ∈ (star (set ranges)).language ↔ ∀ c ∈ word, inRanges ranges c := by
  rw [mem_star]
  constructor
  · rintro ⟨words, rfl, hw⟩ c hc
    obtain ⟨part, hp, hm⟩ := List.mem_flatten.mp hc
    obtain ⟨d, hd, rfl⟩ := hw part hp
    rw [List.mem_singleton.mp hm]
    exact hd
  · intro h
    refine ⟨word.map fun c => [c], by simp [← List.flatMap_def], ?_⟩
    intro part hp
    obtain ⟨c, hc, rfl⟩ := List.mem_map.mp hp
    exact ⟨c, h c hc, rfl⟩

theorem mem_set_seq : word ∈ (seq (set ranges) second).language ↔
    ∃ c rest, word = c :: rest ∧ inRanges ranges c ∧ rest ∈ second.language := by
  rw [mem_seq]
  constructor
  · rintro ⟨_, ⟨c, hc, rfl⟩, rest, hr, rfl⟩
    exact ⟨c, rest, rfl, hc, hr⟩
  · rintro ⟨c, rest, rfl, hc, hr⟩
    exact ⟨[c], ⟨c, hc, rfl⟩, rest, hr, rfl⟩

theorem mem_seq_set : word ∈ (seq first (set ranges)).language ↔
    ∃ front c, word = front ++ [c] ∧ front ∈ first.language ∧ inRanges ranges c := by
  rw [mem_seq]
  constructor
  · rintro ⟨front, hf, _, ⟨c, hc, rfl⟩, rfl⟩
    exact ⟨front, c, rfl, hf, hc⟩
  · rintro ⟨front, c, rfl, hf, hc⟩
    exact ⟨front, hf, [c], ⟨c, hc, rfl⟩, rfl⟩

theorem mem_plus : word ∈ (plus inner).language ↔
    ∃ words : List (List Char), words ≠ [] ∧ word = words.flatten ∧
      ∀ part ∈ words, part ∈ inner.language := by
  rw [plus, mem_seq]
  constructor
  · rintro ⟨left, hl, right, hr, rfl⟩
    obtain ⟨words, rfl, hw⟩ := mem_star.mp hr
    exact ⟨left :: words, List.cons_ne_nil _ _, rfl, List.forall_mem_cons.mpr ⟨hl, hw⟩⟩
  · rintro ⟨words, hne, rfl, hw⟩
    obtain ⟨left, words, rfl⟩ := List.exists_cons_of_ne_nil hne
    obtain ⟨hl, hw⟩ := List.forall_mem_cons.mp hw
    exact ⟨left, hl, words.flatten, mem_star.mpr ⟨words, rfl, hw⟩, rfl⟩

end Regex

end ProofKit
