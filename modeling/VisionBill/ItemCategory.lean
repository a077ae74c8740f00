import VisionBill.Text

/-!
# Spending categories

The category codes, and the two string functions of `item_category.py`:
the key under which a description or a merchant is remembered, and the
reading of a category written by a model, which has no authority beyond
the codes.

A code is stored as a text, and read back as the category that has it
(`ofCode_code`). A key is what is left of a text when white space and case
are forgotten, and is empty exactly for a blank text
(`normalizeHistoryKey_eq_empty_iff`); whether two texts have one key is
the only thing that is ever asked of it.
-/

namespace VisionBill

/-- A spending category. Deposits are one of them, and so is not
knowing. -/
inductive SpendingCategory
  | unknown | other | milk | cheese | yogurt | eggs | butterSpreads
  | breadBakery | cereals | pastaRiceGrains | vegetables | fruit
  | meat | fish | readyMeals | snacksSweets | coffeeTea | water
  | softDrinks | alcohol | saucesSpices | cleaning | household
  | personalCare | pet | health | clothing | electronics | hardware
  | restaurant | fuel | services | deposit
  deriving DecidableEq, Repr

namespace SpendingCategory

/-- The code that stands for the category in text. The model answers with
it, and the columns hold it. -/
def code : SpendingCategory → String
  | unknown => "unknown" | other => "other" | milk => "milk" | cheese => "cheese"
  | yogurt => "yogurt" | eggs => "eggs" | butterSpreads => "butter_spreads"
  | breadBakery => "bread_bakery" | cereals => "cereals"
  | pastaRiceGrains => "pasta_rice_grains" | vegetables => "vegetables" | fruit => "fruit"
  | meat => "meat" | fish => "fish" | readyMeals => "ready_meals"
  | snacksSweets => "snacks_sweets" | coffeeTea => "coffee_tea" | water => "water"
  | softDrinks => "soft_drinks" | alcohol => "alcohol" | saucesSpices => "sauces_spices"
  | cleaning => "cleaning" | household => "household" | personalCare => "personal_care"
  | pet => "pet" | health => "health" | clothing => "clothing"
  | electronics => "electronics" | hardware => "hardware" | restaurant => "restaurant"
  | fuel => "fuel" | services => "services" | deposit => "deposit"

/-- All categories, in the order of the source. -/
def all : List SpendingCategory :=
  [unknown, other, milk, cheese, yogurt, eggs, butterSpreads, breadBakery, cereals,
    pastaRiceGrains, vegetables, fruit, meat, fish, readyMeals, snacksSweets, coffeeTea, water,
    softDrinks, alcohol, saucesSpices, cleaning, household, personalCare, pet, health, clothing,
    electronics, hardware, restaurant, fuel, services, deposit]

/-- The category that a code stands for. -/
def ofCode (s : String) : Option SpendingCategory := all.find? (fun c => c.code = s)

theorem ofCode_code (c : SpendingCategory) : ofCode c.code = some c := by
  cases c <;> decide

theorem code_injective : Function.Injective code := fun c d h => by
  have := ofCode_code c
  rw [h, ofCode_code] at this
  exact (Option.some.inj this).symm

end SpendingCategory

/-- `normalize_history_key`: case folding after whitespace collapse. Two
texts have one key if they differ in nothing else, and a blank text has
the empty key. -/
def normalizeHistoryKey [CaseFolding] (value : String) : String := casefold (collapse value)

/-- Only a blank value has an empty key. -/
theorem normalizeHistoryKey_eq_empty_iff [CaseFolding] {value : String} :
    normalizeHistoryKey value = "" ↔ strip value = "" := by
  unfold normalizeHistoryKey
  rw [casefold_eq_empty_iff, collapse_eq_empty_iff]

/-- `llm_category`: unsupported model output has no spending authority. A
value that is not a string is `none`. -/
def llmCategory (value : Option String) : SpendingCategory :=
  (value.bind SpendingCategory.ofCode).getD .unknown

@[simp] theorem llmCategory_code (c : SpendingCategory) : llmCategory (some c.code) = c := by
  unfold llmCategory
  rw [Option.bind_some, SpendingCategory.ofCode_code, Option.getD_some]

end VisionBill
