import HypervisorTrace.Proofs.FixedHeader.Encoding
import HypervisorTrace.Proofs.Trec.Encoding
import HypervisorTrace.Proofs.Wire.Checking
import HypervisorTrace.Wire.Format

/-!
Truncated streams in either format. Both framings take their items in two
parts, so what is proved of such framings holds of both readers.
-/

namespace HypervisorTrace.Wire

namespace Format

/-- The size of the part of a record that tells how long the record is, in
bytes. -/
def headerSize : Format → Nat
  | trec => 4
  | fixedHeader => 16

/-- Reading a stream with length checks, where it is a fault of its own to take
a word past the end. -/
def readChecked (format : Format) (bytes : List UInt8) : Except ReadFault (List Record) :=
  match format with
  | trec => (Trec.parts.readFrom 0 bytes).map fun frames => Trec.collect (rows frames)
  | fixedHeader =>
    (FixedHeader.parts.readFrom 0 bytes).map fun frames => (rows frames).map FixedHeader.record

theorem readChecked_eq (format : Format) (bytes : List UInt8) :
    format.readChecked bytes = (format.read bytes).mapError .truncated := by
  cases format with
  | trec =>
      rw [readChecked, read, Parts.readFrom_eq, Framing.split]
      cases Trec.framing.splitFrom 0 bytes <;> rfl
  | fixedHeader =>
      rw [readChecked, read, Parts.readFrom_eq, Framing.split]
      cases FixedHeader.framing.splitFrom 0 bytes <;> rfl

/-- A stream that is not read lacks bytes, and the report of them is exact. A
reader that checks lengths before it takes words gives the same report, and
never meets the end of the bytes otherwise. -/
theorem reports_exactly_missing (format : Format) (bytes : List UInt8) :
    format.readChecked bytes = (format.read bytes).mapError .truncated ∧
    ∀ report, format.read bytes = .error report →
      ExactReport format.read format.headerSize bytes report := by
  refine ⟨format.readChecked_eq bytes, ?_⟩
  intro report hread
  cases format with
  | trec =>
      have hsplit : Trec.framing.split bytes = .error report := eq_error_of_map hread
      exact (Trec.coding.split_exactReport Trec.parts hsplit).map _
  | fixedHeader =>
      have hsplit : FixedHeader.framing.split bytes = .error report := eq_error_of_map hread
      exact (FixedHeader.coding.split_exactReport FixedHeader.parts hsplit).map _

/-- An item that ends four bytes before its second extra word does: one byte
leaves three missing, and any four bytes complete it. -/
theorem reports_exactly_missing_word :
    let front := Trec.coding.encodeAll [.mk 0x0001f003 none [0, 0]]
    let bytes := front ++ encodeWords [0xa0028004, 1, 0, 5]
    Format.trec.read bytes = .error ⟨12, 4⟩ ∧
      (∃ records, Format.trec.read (bytes.take 12) = .ok records) ∧
      Format.trec.read (bytes ++ [1]) = .error ⟨12, 3⟩ ∧
      ∃ records, Format.trec.read (bytes ++ [1, 0, 0, 0]) = .ok records := by
  intro front bytes
  have hsplit : Trec.framing.split bytes = .error ⟨12, 4⟩ :=
    Trec.coding.split_of_cut [.mk 0x0001f003 none [0, 0]] (by decide) (by decide)
  have hread : Format.trec.read bytes = .error ⟨12, 4⟩ := by
    rw [read, hsplit]
    rfl
  have hreport := (reports_exactly_missing .trec bytes).2 _ hread
  refine ⟨hread, hreport.before, hreport.fewer [1] (by decide), ?_⟩
  rcases hreport.filled [1, 0, 0, 0] rfl with hok | ⟨-, hheader⟩
  · exact hok
  · exact absurd hheader (by decide)

end Format

end HypervisorTrace.Wire
