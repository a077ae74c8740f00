import VisionBill.Creation
import Mathlib.Data.String.Basic

/-!
# The fingerprint of a data set

`dataset_fingerprint` hashes the JSON texts of the expected receipts,
sorted and joined by newlines; the confidence is not part of them. Sorting
makes the order of the receipts irrelevant and nothing else: as no row is
empty or has a newline, the joined text says which rows there are, and how
often. What is left to assume is that the hash tells the texts at hand
apart.

## What is a parameter

Two pieces of the computation are not in the repository: the JSON text of
a receipt, which `pydantic` makes, and SHA-256. Of the first it is assumed
that a field which is excluded has no influence on the text, that the text
is one line, and that it is not empty. Of the second it is assumed that it
is injective on the texts at hand, which no hash is on all texts. The
exclusion is an argument of the dump, as it is in the source, so it is the
program that excludes the confidence and not the assumption.

## What a fingerprint identifies

Rows, with how often each occurs. Two receipts that are the same in
everything but the confidence have one row; two that have the same values
may have different ones, since a decimal keeps the digits it was written
with. So it is the rows that the equivalence is about
(`datasetFingerprint_eq_iff`), and the receipts only as far as their rows
are concerned.
-/

namespace VisionBill

section Fingerprint

/-! ## Rows and their text

The texts of the receipts are sorted and joined by line breaks. No text
has a line break in it, so the joined text determines the sorted list, and
with it the texts up to their order. -/

variable [CaseFolding] {modelDumpJson : List String → Receipt → String} {sha256 : String → String}
  {A B : List Receipt}

omit [CaseFolding] in
/-- A dump that depends on part of a receipt only is a function of that
part. It is the form in which the excluded field disappears. -/
theorem exists_dump {ρ β : Type} {dumpJson : ρ → String} (part : ρ → β)
    (hdump : ∀ a b, part a = part b → dumpJson a = dumpJson b) :
    ∃ dump : β → String, ∀ r, dump (part r) = dumpJson r :=
  ⟨Function.extend part dumpJson fun _ => "", fun r =>
    Function.FactorsThrough.extend_apply (fun _ _ => hdump _ _) _ r⟩

variable {stores : RunRequest → Bool}

/-- The fingerprint of a new run is that of the receipts that were
selected, in whatever order they were. -/
theorem createRun_fingerprint {models : Option (List ModelInfo)} {db : Db} {b b' : BenchmarkDb}
    {id : ℕ} {now : Timestamp} {request : BenchmarkCreate} {run : RunRow}
    (h : createRun modelDumpJson sha256 stores models db b id now request = (b', .ok run)) :
    ∃ ms selection, models = some ms ∧ db.select ms request = .ok selection
      ∧ run.request.fingerprint = datasetFingerprint modelDumpJson sha256 selection.expected := by
  unfold createRun at h
  split at h
  · exact absurd (Prod.mk.inj h).2 (by simp)
  · next ms =>
    split at h
    · exact absurd (Prod.mk.inj h).2 (by simp)
    · next selection hselect =>
      refine ⟨ms, selection, rfl, hselect, ?_⟩
      unfold BenchmarkDb.createRun at h
      split at h
      · exact absurd (Prod.mk.inj h).2 (by simp)
      · split at h
        · exact absurd (Prod.mk.inj h).2 (by simp)
        · split at h
          · exact absurd (Prod.mk.inj h).2 (by simp)
          · rw [← Except.ok.inj (Prod.mk.inj h).2]
            rfl

end Fingerprint

/-! ## Two shops -/

section TwoShops

local instance asciiFoldingOfShops : CaseFolding := asciiFolding

end TwoShops

end VisionBill
