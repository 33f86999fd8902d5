import HypervisorTrace.Word

/-!
Taking words off the front of a byte string. When the bytes do not suffice, the answer is how many
are missing; what has been taken and what is left always make up the whole.
-/

namespace HypervisorTrace.Wire

/-- The first word and what follows it, or the number of missing bytes. -/
def takeWord : List UInt8 → Except Nat (Word × List UInt8)
  | a :: b :: c :: d :: rest => .ok (Word.ofBytes a b c d, rest)
  | short => .error (4 - short.length)

def takeWords : Nat → List UInt8 → Except Nat (List Word × List UInt8)
  | 0, bytes => .ok ([], bytes)
  | count + 1, bytes =>
    match takeWord bytes with
    | .error missing => .error (missing + 4 * count)
    | .ok (word, rest) =>
      match takeWords count rest with
      | .error missing => .error missing
      | .ok (words, rest) => .ok (word :: words, rest)

theorem length_of_takeWord {bytes rest : List UInt8} {word : Word}
    (h : takeWord bytes = .ok (word, rest)) : bytes.length = 4 + rest.length := by
  unfold takeWord at h
  split at h
  · cases h
    simp only [List.length_cons]
    omega
  · cases h

theorem length_of_takeWords {count : Nat} {bytes rest : List UInt8} {words : List Word}
    (h : takeWords count bytes = .ok (words, rest)) :
    words.length = count ∧ bytes.length = 4 * count + rest.length := by
  induction count generalizing bytes words with
  | zero =>
    cases h
    simp
  | succ count ih =>
    unfold takeWords at h
    split at h
    · cases h
    · rename_i first
      split at h
      · cases h
      · rename_i others
        cases h
        have one := length_of_takeWord first
        have more := ih others
        simp only [List.length_cons]
        omega

end HypervisorTrace.Wire
