import Mathlib.Tactic.Common

namespace Base64

/-!
# Base64

Decoding with the standard alphabet and canonical padding: the length is a multiple of four, and the bits that no
byte takes are zero.

* `Strict` — what can be relied on of any decoder of the standard alphabet: it takes texts of its characters and of
  the padding only;
* `decode` — a decoder that can be run, four characters at a time and two or three at the end;
* `strict_decode` — this one is strict.

Results about code that decodes Base64 are for any strict decoder; `decode` is for running that code on an example.
-/

/-- The characters in the order of their values. -/
def alphabet : List Char :=
  "ABCDEFGHIJKLMNOPQRSTUVWXYZabcdefghijklmnopqrstuvwxyz0123456789+/".toList

/-- A decoder that takes the characters of the alphabet and the padding only, no white space in particular. -/
def Strict (decode : List Char → Option (List UInt8)) : Prop :=
  ∀ s bytes, decode s = some bytes → ∀ c ∈ s, c ∈ alphabet ∨ c = '='

/-- The value of a character. -/
def sextet (c : Char) : Option Nat := alphabet.idxOf? c

/-- The last byte, of two characters. -/
def lastOne (a b : Char) : Option (List UInt8) := do
  let a ← sextet a
  let b ← sextet b
  if b % 16 = 0 then some [UInt8.ofNat (a * 4 + b / 16)] else none

/-- The last two bytes, of three characters. -/
def lastTwo (a b c : Char) : Option (List UInt8) := do
  let a ← sextet a
  let b ← sextet b
  let c ← sextet c
  if c % 4 = 0 then some [UInt8.ofNat (a * 4 + b / 16), UInt8.ofNat (b % 16 * 16 + c / 4)] else none

/-- Three bytes, of four characters. -/
def three (a b c d : Char) : Option (List UInt8) := do
  let a ← sextet a
  let b ← sextet b
  let c ← sextet c
  let d ← sextet d
  some [UInt8.ofNat (a * 4 + b / 16), UInt8.ofNat (b % 16 * 16 + c / 4), UInt8.ofNat (c % 4 * 64 + d)]

/-- The bytes of a text. -/
def decode : List Char → Option (List UInt8)
  | [] => some []
  | a :: b :: c :: d :: rest =>
      if d = '=' then
        if rest = [] then if c = '=' then lastOne a b else lastTwo a b c else none
      else do
        let bytes ← three a b c d
        let bytes' ← decode rest
        some (bytes ++ bytes')
  | _ => none

theorem mem_of_sextet {c : Char} {n : Nat} (h : sextet c = some n) : c ∈ alphabet := by
  refine not_not.mp fun hmem => ?_
  rw [sextet, List.idxOf?_eq_none_iff.mpr hmem] at h
  cases h

theorem mem_of_lastOne {a b : Char} {bytes : List UInt8} (h : lastOne a b = some bytes) :
    a ∈ alphabet ∧ b ∈ alphabet := by
  obtain ⟨x, ha, h⟩ := Option.bind_eq_some_iff.mp h
  obtain ⟨y, hb, -⟩ := Option.bind_eq_some_iff.mp h
  exact ⟨mem_of_sextet ha, mem_of_sextet hb⟩

theorem mem_of_lastTwo {a b c : Char} {bytes : List UInt8} (h : lastTwo a b c = some bytes) :
    a ∈ alphabet ∧ b ∈ alphabet ∧ c ∈ alphabet := by
  obtain ⟨x, ha, h⟩ := Option.bind_eq_some_iff.mp h
  obtain ⟨y, hb, h⟩ := Option.bind_eq_some_iff.mp h
  obtain ⟨z, hc, -⟩ := Option.bind_eq_some_iff.mp h
  exact ⟨mem_of_sextet ha, mem_of_sextet hb, mem_of_sextet hc⟩

theorem mem_of_three {a b c d : Char} {bytes : List UInt8} (h : three a b c d = some bytes) :
    a ∈ alphabet ∧ b ∈ alphabet ∧ c ∈ alphabet ∧ d ∈ alphabet := by
  obtain ⟨x, ha, h⟩ := Option.bind_eq_some_iff.mp h
  obtain ⟨y, hb, h⟩ := Option.bind_eq_some_iff.mp h
  obtain ⟨z, hc, h⟩ := Option.bind_eq_some_iff.mp h
  obtain ⟨w, hd, -⟩ := Option.bind_eq_some_iff.mp h
  exact ⟨mem_of_sextet ha, mem_of_sextet hb, mem_of_sextet hc, mem_of_sextet hd⟩

/-- The decoder of this module is strict: nothing but the characters of the alphabet and of the padding is decoded. -/
theorem strict_decode : Strict decode := by
  intro s bytes h
  fun_induction decode s generalizing bytes with
  | case1 => exact nofun
  | case2 a b =>
      obtain ⟨ha, hb⟩ := mem_of_lastOne h
      simp [ha, hb]
  | case3 a b c =>
      obtain ⟨ha, hb, hc⟩ := mem_of_lastTwo h
      simp [ha, hb, hc]
  | case4 => cases h
  | case5 a b c d rest hpad ih =>
      -- the text in front of `rest` has no padding
      obtain ⟨front, hfront, h⟩ := Option.bind_eq_some_iff.mp h
      obtain ⟨back, hback, -⟩ := Option.bind_eq_some_iff.mp h
      obtain ⟨ha, hb, hc, hd⟩ := mem_of_three hfront
      simpa [ha, hb, hc, hd] using ih back hback
  | case6 => cases h

example : decode "AQIDBA==".toList = some [1, 2, 3, 4] := by decide

end Base64
