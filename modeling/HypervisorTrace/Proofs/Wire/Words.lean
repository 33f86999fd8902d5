import HypervisorTrace.Wire.Words
import Mathlib.Tactic

/-!
Words stored in a byte string. Taking words off a stream that starts with some
stored words gives exactly these, and whatever is taken off was stored there.
-/

namespace HypervisorTrace.Wire

def encodeWords (words : List Word) : List UInt8 :=
  words.flatMap Word.toBytes

@[simp] theorem encodeWords_nil : encodeWords [] = [] := rfl

@[simp] theorem encodeWords_cons (word : Word) (rest : List Word) :
    encodeWords (word :: rest) = Word.toBytes word ++ encodeWords rest := by
  simp [encodeWords]

@[simp] theorem encodeWords_append (first second : List Word) :
    encodeWords (first ++ second) = encodeWords first ++ encodeWords second := by
  simp [encodeWords]

theorem length_encodeWords (words : List Word) :
    (encodeWords words).length = 4 * words.length := by
  induction words with
  | nil => rfl
  | cons word rest ih =>
      rw [encodeWords_cons, List.length_append, ih, Word.length_toBytes, List.length_cons]
      omega

theorem takeWord_of_length_lt {bytes : List UInt8} (hshort : bytes.length < 4) :
    takeWord bytes = .error (4 - bytes.length) := by
  unfold takeWord
  split
  · simp only [List.length_cons] at hshort
    omega
  · rfl

theorem exists_takeWord {bytes : List UInt8} (hlength : 4 ≤ bytes.length) :
    ∃ word rest, takeWord bytes = .ok (word, rest) := by
  rcases bytes with _ | ⟨a, _ | ⟨b, _ | ⟨c, _ | ⟨d, rest⟩⟩⟩⟩
  · simp at hlength
  · simp at hlength
  · simp at hlength
  · simp at hlength
  · exact ⟨_, rest, rfl⟩

/-- Bytes that do not suffice for some words lack the rest of all of them,
whole words or not. -/
theorem takeWords_of_length_lt {count : Nat} {bytes : List UInt8}
    (hshort : bytes.length < 4 * count) :
    takeWords count bytes = .error (4 * count - bytes.length) := by
  induction count generalizing bytes with
  | zero => omega
  | succ count ih =>
      rw [takeWords]
      by_cases hfirst : bytes.length < 4
      · rw [takeWord_of_length_lt hfirst]
        dsimp only
        congr 1
        omega
      · obtain ⟨word, rest, hword⟩ := exists_takeWord (Nat.le_of_not_lt hfirst)
        have htotal := length_of_takeWord hword
        rw [hword]
        dsimp only
        rw [ih (by omega)]
        dsimp only
        congr 1
        omega

theorem exists_takeWords {count : Nat} {bytes : List UInt8}
    (hlength : 4 * count ≤ bytes.length) :
    ∃ words rest, takeWords count bytes = .ok (words, rest) := by
  induction count generalizing bytes with
  | zero => exact ⟨[], bytes, rfl⟩
  | succ count ih =>
      have hfirst : 4 ≤ bytes.length := by omega
      obtain ⟨word, left, hword⟩ := exists_takeWord hfirst
      have htotal := length_of_takeWord hword
      have hleft : 4 * count ≤ left.length := by omega
      obtain ⟨words, rest, hwords⟩ := ih hleft
      refine ⟨word :: words, rest, ?_⟩
      rw [takeWords, hword]
      dsimp only
      rw [hwords]

theorem takeWord_toBytes (word : Word) (rest : List UInt8) :
    takeWord (Word.toBytes word ++ rest) = .ok (word, rest) := by
  simp only [Word.toBytes, List.cons_append, List.nil_append, takeWord, Word.ofBytes_toBytes]

theorem bytes_of_takeWord {bytes rest : List UInt8} {word : Word}
    (htake : takeWord bytes = .ok (word, rest)) : Word.toBytes word ++ rest = bytes := by
  unfold takeWord at htake
  split at htake
  · cases htake
    rw [Word.toBytes_ofBytes]
    rfl
  · cases htake

theorem takeWords_encodeWords (words : List Word) (rest : List UInt8) :
    takeWords words.length (encodeWords words ++ rest) = .ok (words, rest) := by
  induction words with
  | nil => rfl
  | cons word others ih =>
      rw [encodeWords_cons, List.append_assoc, List.length_cons, takeWords, takeWord_toBytes]
      dsimp only
      rw [ih]

theorem encodeWords_injective : Function.Injective encodeWords := by
  intro first second hbytes
  have hlength : first.length = second.length := by
    have htotal := congrArg List.length hbytes
    rw [length_encodeWords, length_encodeWords] at htotal
    omega
  have hfirst := takeWords_encodeWords first []
  rw [hbytes, hlength, takeWords_encodeWords second []] at hfirst
  injection hfirst with hpair
  exact (congrArg Prod.fst hpair).symm

theorem bytes_of_takeWords {count : Nat} {bytes rest : List UInt8} {words : List Word}
    (htake : takeWords count bytes = .ok (words, rest)) :
    encodeWords words ++ rest = bytes := by
  induction count generalizing bytes words with
  | zero =>
      cases htake
      rfl
  | succ count ih =>
      unfold takeWords at htake
      split at htake
      · cases htake
      · rename_i word left hword
        split at htake
        · cases htake
        · rename_i others tail hothers
          cases htake
          rw [encodeWords_cons, List.append_assoc, ih hothers, bytes_of_takeWord hword]

end HypervisorTrace.Wire
