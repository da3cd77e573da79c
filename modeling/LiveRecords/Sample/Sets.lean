import LiveRecords.Facade.EntityQuery
import LiveRecords.Sample.Shop

/-
  The entity sets of the shop: its types with the forms of their documents and keys.
  All fields but the key may be missing.
-/

namespace LiveRecords.Shop

/-- The form of an address. -/
def addressForm : Form := .record [("street", .optional .text), ("city", .optional .text)]

/-- The form of a vendor. -/
def vendorForm : Form := .record [("id", .int), ("name", .optional .text)]

/-- The form of a product. -/
def productForm : Form :=
  .record [("key", .text), ("name", .optional .text), ("price", .optional .int),
    ("rating", .optional .float), ("active", .optional .bool),
    ("tags", .optional (.list .text)), ("vendor", .optional vendorForm)]

/-- The form of a customer. -/
def customerForm : Form :=
  .record [("id", .int), ("name", .optional .text), ("email", .optional .text),
    ("address", .optional addressForm)]

/-- The form of an order. -/
def orderForm : Form :=
  .record [("key", .text), ("status", .optional .text), ("total", .optional .float),
    ("customer", .optional customerForm)]

/-- The entity sets. -/
def sets : List EntitySet :=
  [⟨address, addressForm, .unit⟩, ⟨vendor, vendorForm, .int⟩, ⟨product, productForm, .text⟩,
   ⟨customer, customerForm, .int⟩, ⟨order, orderForm, .text⟩]

/-- The entity set of a name. -/
def set? (name : String) : Option EntitySet := sets.find? (·.type.name == name)

end LiveRecords.Shop
