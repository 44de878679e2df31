import MarketplacePipeline.Domain.CrmTask
import MarketplacePipeline.Python.Float
import Mathlib.Data.List.Sort

/-!
# The CRM tasks of a catalog

`ProductSelectionService` selects the dearest Premium and the cheapest Economy products, and
`CrmTaskFactory.buildTasks` lists each selection in a task.  A price is the rational that its
`float` stands for.
-/

namespace MarketplacePipeline

/-! ### `format(price, ".0f")` -/

/-- `f"{price:.0f}"`: the sign of a negative price stays even if it is rounded to zero. -/
def formatPrice (price : ℚ) : Str :=
  if price < 0 then '-' :: Nat.toDigits 10 (roundHalfEven (-price))
  else Nat.toDigits 10 (roundHalfEven price)

/-! ### Selection -/

namespace ProductSelectionService

/-- `top_premium_by_price(products, limit)`. -/
def topPremiumByPrice (products : List EnrichedProduct) (limit : Int := 5) :
    List EnrichedProduct :=
  let premium := products.filter fun p => p.segment = .premium
  -- `reverse=True` keeps products with the same price in their order
  sliceTo (premium.insertionSort fun p q => q.price ≤ p.price) limit

/-- `top_economy_by_price(products, limit)`. -/
def topEconomyByPrice (products : List EnrichedProduct) (limit : Int := 5) :
    List EnrichedProduct :=
  let economy := products.filter fun p => p.segment = .economy
  sliceTo (economy.insertionSort fun p q => p.price ≤ q.price) limit

end ProductSelectionService

/-! ### Tasks -/

namespace CrmTaskFactory

open ProductSelectionService

def premiumTitle : Str := "Топ-5 дорогих товаров сегмента Премиум".toList

def economyTitle : Str := "Топ-5 дешёвых товаров сегмента Эконом".toList

/-- `f"- {p.name}: {p.price:.0f} {p.currency} — {p.url}"`. -/
def formatLine (p : EnrichedProduct) : Str :=
  "- ".toList ++ p.name ++ ": ".toList ++ formatPrice p.price ++ " ".toList ++ p.currency ++
    " — ".toList ++ p.url

/-- `_format_lines(products)`. -/
def formatLines (products : List EnrichedProduct) : Str :=
  List.intercalate "\n".toList (products.map formatLine)

/-- The task that lists a selection, if the selection is not empty. -/
def taskFor (title : Str) (selection : List EnrichedProduct) : List CrmTaskRequest :=
  if selection = [] then [] else [{ title := title, description := formatLines selection }]

/-- `build_tasks(products)`. -/
def buildTasks (products : List EnrichedProduct) : List CrmTaskRequest :=
  let premium := topPremiumByPrice products
  let economy := topEconomyByPrice products
  taskFor premiumTitle premium ++ taskFor economyTitle economy

end CrmTaskFactory

end MarketplacePipeline
