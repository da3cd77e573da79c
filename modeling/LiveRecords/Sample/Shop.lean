import LiveRecords.Entity.Catalog

/-
  A sample catalogue: the entity types of a small shop.
-/

namespace LiveRecords.Shop

/-- The reference to addresses, which stand first in the catalogue. -/
def addressRef : EntityRef := ⟨"Address", 0⟩

/-- The reference to vendors. -/
def vendorRef : EntityRef := ⟨"Vendor", 1⟩

/-- The reference to customers. -/
def customerRef : EntityRef := ⟨"Customer", 3⟩

/-- Addresses have no key: they are part of the customer who lives there. -/
def address : EntityType :=
  ⟨"Address", 0, [{ name := "street", type := .string }, { name := "city", type := .string }]⟩

/-- Vendors. -/
def vendor : EntityType :=
  ⟨"Vendor", 1, [{ name := "id", type := .int, isKey := true },
    { name := "name", type := .string, mandatory := true }]⟩

/-- Products; each refers to its vendor. -/
def product : EntityType :=
  ⟨"Product", 2, [{ name := "key", type := .string, isKey := true },
    { name := "name", type := .string, searchable := true, index := some .plain },
    { name := "price", type := .int, index := some .plain },
    { name := "rating", type := .float }, { name := "active", type := .bool },
    { name := "tags", type := .list .string }, { name := "vendor", type := .entity vendorRef }]⟩

/-- Customers; no two of them share an e-mail address. -/
def customer : EntityType :=
  ⟨"Customer", 3, [{ name := "id", type := .int, isKey := true },
    { name := "name", type := .string, mandatory := true },
    { name := "email", type := .string, index := some .unique },
    { name := "address", type := .entity addressRef }]⟩

/-- Orders; each refers to its customer. -/
def order : EntityType :=
  ⟨"Order", 4, [{ name := "key", type := .string, isKey := true },
    { name := "status", type := .string, searchable := true },
    { name := "total", type := .float }, { name := "customer", type := .entity customerRef }]⟩

/-- The catalogue of the shop. -/
def catalog : Catalog := ⟨[address, vendor, product, customer, order]⟩

end LiveRecords.Shop
