import MarketplacePipeline.Domain.Product

/-!
# `MockCatalogCollector`

The synthetic catalog of `MOCK_PARSER`: the products `mock-1`, `mock-2` and so on, in three tiers.
-/

namespace MarketplacePipeline.MockCatalogCollector

/-- `CATEGORY_NAME`. -/
def categoryName : Str := "Смартфоны (mock)".toList

/-- `price`, by `tier = index % 3`. -/
def priceOf (index : ℕ) : ℕ :=
  if index % 3 = 0 then 5000 + index % 50 * 100
  else if index % 3 = 1 then 25000 + index % 100 * 200
  else 80000 + index % 30 * 1000

/-- `name` before the index, by `tier`. -/
def stemOf (index : ℕ) : Str :=
  if index % 3 = 0 then "BudgetPhone ".toList
  else if index % 3 = 1 then "MidRange ".toList
  else "Flagship Pro ".toList

def nameOf (index : ℕ) : Str := stemOf index ++ Nat.toDigits 10 index

/-- `_build_product(index)` at the moment `now`. -/
def buildProduct (now : Timestamp) (index : ℕ) : Product where
  id := "mock-".toList ++ Nat.toDigits 10 index
  name := nameOf index
  price := priceOf index
  currency := "RUB".toList
  url := "https://www.ozon.ru/product/mock-".toList ++ Nat.toDigits 10 index ++ "/".toList
  category := categoryName
  collectedAt := now
  description := nameOf index ++ ". Категория ".toList ++ categoryName ++ ".".toList

/-- `collect(target_count)`, where `now index` is the moment at which a product is built. -/
def collect (now : ℕ → Timestamp) (targetCount : ℤ) : CollectionResult :=
  let products := (List.range' 1 targetCount.toNat).map fun index => buildProduct (now index) index
  { products := products
    targetCount := targetCount
    collectedCount := products.length
    exhausted := decide ((products.length : ℤ) < targetCount)
    degraded := false }

end MarketplacePipeline.MockCatalogCollector
