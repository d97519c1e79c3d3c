import WhatStore.Text.Substitution

/-!
# Messages and mails from templates

`message-renderer` and `template-renderer`: chains of `replaceAll` calls over the
placeholders of a message to the store, of a line of it, and of a mail.
-/

namespace WhatStore.Text

def named (text : String) (h : '{' ∉ text.toList ∧ '}' ∉ text.toList := by decide) : Name :=
  ⟨text.toList, h⟩

/-! ## The message to the store -/

structure OrderMessageContext where
  storeName : Chars
  orderNo : Chars
  customerName : Chars
  billingAddress : Chars
  shippingAddress : Chars
  qtyTotal : Number
  subTotal : Chars
  discountAmount : Chars
  shippingAmount : Chars
  itemTax : Chars
  itemTotal : Chars
  itemLines : List Chars

def OrderMessageContext.values (ctx : OrderMessageContext) : Values :=
  [(named "store_name", ctx.storeName),
    (named "order_no", ctx.orderNo),
    (named "customer_name", ctx.customerName),
    (named "billing_address", ctx.billingAddress),
    (named "shipping_address", ctx.shippingAddress),
    (named "qty_total", ctx.qtyTotal.toText),
    (named "sub_total", ctx.subTotal),
    (named "discount_amount", ctx.discountAmount),
    (named "shipping_amount", ctx.shippingAmount),
    (named "item_tax", ctx.itemTax),
    (named "item_total", ctx.itemTotal),
    (named "item_variable", ['\n'].intercalate ctx.itemLines)]

def renderOrderMessage (template : Chars) (ctx : OrderMessageContext) : Chars :=
  render template ctx.values

structure ItemLineContext where
  sku : Chars
  quantity : Number
  productName : Chars
  variantName : Chars
  itemTax : Chars
  itemTotal : Chars

def ItemLineContext.values (ctx : ItemLineContext) : Values :=
  [(named "sku", ctx.sku),
    (named "quantity", ctx.quantity.toText),
    (named "product_name", ctx.productName),
    (named "variant_name", ctx.variantName),
    (named "item_tax", ctx.itemTax),
    (named "item_total", ctx.itemTotal)]

def renderItemLine (template : Chars) (ctx : ItemLineContext) : Chars := render template ctx.values

/-! ## Mails -/

/-- The variables of a mail, a record without two fields of one name, in the order in
which its entries are listed. -/
structure Variables where
  entries : Values
  nodup : (entries.map Prod.fst).Nodup

def renderTemplate (template : Chars) (vars : Variables) : Chars :=
  render template vars.entries

/-! ## One simultaneous substitution -/

theorem OrderMessageContext.nodup (ctx : OrderMessageContext) :
    (ctx.values.map Prod.fst).Nodup := by
  simp only [values, List.map_cons, List.map_nil]
  decide

theorem ItemLineContext.nodup (ctx : ItemLineContext) : (ctx.values.map Prod.fst).Nodup := by
  simp only [values, List.map_cons, List.map_nil]
  decide

/-- **Rendering is one simultaneous substitution**, of each placeholder by its value as it
is, exactly when no value is taken for more than text. -/
theorem rendering_verbatim_iff (template : Chars) :
    (∀ ctx : OrderMessageContext,
      RendersVerbatim template ctx.values (renderOrderMessage template ctx) ↔
        Inert template ctx.values) ∧
    (∀ ctx : ItemLineContext,
      RendersVerbatim template ctx.values (renderItemLine template ctx) ↔
        Inert template ctx.values) ∧
    ∀ vars : Variables, RendersVerbatim template vars.entries (renderTemplate template vars) ↔
      Inert template vars.entries :=
  ⟨fun ctx => rendersVerbatim_iff ctx.nodup, fun ctx => rendersVerbatim_iff ctx.nodup,
    fun vars => rendersVerbatim_iff vars.nodup⟩

def placeholderName : OrderMessageContext where
  storeName := []
  orderNo := []
  customerName := (named "item_total").placeholder
  billingAddress := []
  shippingAddress := []
  qtyTotal := .zero
  subTotal := []
  discountAmount := []
  shippingAmount := []
  itemTax := []
  itemTotal := "43.08".toList
  itemLines := []

/-- The message has the total in place of the name. -/
theorem rendering_not_verbatim : ¬ ((∀ (template : Chars) (ctx : OrderMessageContext),
      renderOrderMessage template ctx = substitute template ctx.values) ∧
    (∀ (template : Chars) (ctx : ItemLineContext),
      renderItemLine template ctx = substitute template ctx.values) ∧
    ∀ (template : Chars) (vars : Variables),
      renderTemplate template vars = substitute template vars.entries) := by
  intro h
  exact absurd (h.1 (named "customer_name").placeholder placeholderName) (by decide +kernel)

end WhatStore.Text
