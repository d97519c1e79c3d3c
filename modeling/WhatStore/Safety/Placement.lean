import WhatStore.Protocol.Placement
import WhatStore.ReadCommitted.Histories
import WhatStore.ReadCommitted.Schedule

/-!
# Orders are created whole or not at all

A request that creates an order writes in one transaction and tells the queues
and the merchant before that transaction ends. A refused confirmation mail is
thrown and rolls everything back, but a Telegram message that was queued before
it stays queued.
-/

namespace WhatStore

open ReadCommitted

/-- A process that threw has told nobody and kept nothing, and what was told of an
order was told of one that the process has committed. -/
structure AllOrNothing (h : List Ev) : Prop where
  threw : ∀ e, .threw e ∈ h → Silent h ∧ ∀ tx, .committed tx ∉ h ∧ .returned tx ∉ h
  told : ∀ orderId, Told orderId h → ∃ tx o, .returned tx ∈ h ∧ .insertOrder orderId o ∈ tx

variable {h : List Ev} {dto : CreateOrder}

theorem silent_threw {e : Err} (hsilent : Silent h) : Silent (.threw e :: h) := by
  intro e' he'
  rcases List.mem_cons.1 he' with rfl | he'
  · exact nofun
  · exact hsilent e' he'

theorem not_silent_of_told {orderId : Id} (htold : Told orderId h) : ¬ Silent h := by
  intro hsilent
  cases htold with
  | job job horder hmem => exact hsilent _ hmem (.job job)
  | event hmem => exact hsilent _ hmem (.event orderId)

theorem told_of_final {e : Ev} {orderId : Id} (htold : Told orderId (e :: h))
    (he : e.Final (S := shop)) : Told orderId h := by
  have hdrop : ∀ {c : Call} {a : c.Answer}, (.call c a : Ev) ∈ e :: h → (.call c a : Ev) ∈ h := by
    intro c a hmem
    rcases List.mem_cons.1 hmem with rfl | hmem
    · exact he.elim
    · exact hmem
  cases htold with
  | job job horder hmem => exact .job job horder (hdrop hmem)
  | event hmem => exact .event (hdrop hmem)

theorem refused_of_final {e : Ev} (hrefused : Refused (e :: h)) (he : e.Final (S := shop)) :
    Refused h := by
  obtain ⟨t, id, hmem⟩ := hrefused
  rcases List.mem_cons.1 hmem with rfl | hmem
  · exact he.elim
  · exact ⟨t, id, hmem⟩

theorem allOrNothing_threw {e : Err} (hlaw : PlacementLaw dto h (.threw e))
    (hends : ∀ x ∈ h, ¬ x.Final (S := shop)) :
    AllOrNothing (.threw e :: h) ↔ ¬ TelegramUnconfirmed dto (.threw e :: h) := by
  obtain ⟨hnone, hcases⟩ := hlaw
  have hkept : ∀ tx, (.committed tx : Ev) ∉ .threw e :: h ∧ (.returned tx : Ev) ∉ .threw e :: h := by
    intro tx
    constructor
    · simpa using hnone tx
    · intro hmem
      rcases List.mem_cons.1 hmem with heq | hmem
      · cases heq
      · exact hends _ hmem trivial
  rcases hcases with ⟨hsilent, hconfirmed⟩ | ⟨⟨orderId, htold⟩, hmethod, t, id, hmem⟩
  · constructor
    · intro _ hbad
      exact hconfirmed ⟨hbad.1, refused_of_final hbad.2 trivial⟩
    · intro _
      constructor
      · exact fun _ _ => ⟨silent_threw hsilent, hkept⟩
      · intro orderId htold
        exact absurd hsilent (not_silent_of_told (told_of_final htold trivial))
  · constructor
    · intro hall
      have hsilent := (hall.threw e List.mem_cons_self).1
      refine absurd (fun e' he' => ?_) (not_silent_of_told htold)
      exact hsilent e' (List.mem_cons_of_mem _ he')
    · intro hconfirmed
      exact absurd ⟨hmethod, t, id, List.mem_cons_of_mem _ hmem⟩ hconfirmed

theorem allOrNothing_returned {tx : List Update} (hlaw : PlacementLaw dto h (.returned tx))
    (hends : ∀ x ∈ h, ¬ x.Final (S := shop)) :
    AllOrNothing (.returned tx :: h) ∧ ¬ TelegramUnconfirmed dto (.returned tx :: h) := by
  constructor
  · constructor
    · intro e he
      rcases List.mem_cons.1 he with heq | he
      · cases heq
      · exact absurd trivial (hends _ he)
    · intro orderId htold
      obtain ⟨o, ho⟩ := hlaw.2 orderId (told_of_final htold trivial)
      exact ⟨tx, o, List.mem_cons_self, ho⟩
  · exact fun hbad => hlaw.1 (refused_of_final hbad.2 trivial)

/-- **An order is created whole or not at all**, whatever else goes on, unless it
goes out as a Telegram message and the queue of its confirmation mail fails. -/
theorem create_all_or_nothing {db : Database} {s : StoreSystem} {i : ℕ} {t : Id} {e : Ev}
    (hrun : Runs (fun _ => True) (fun _ _ _ _ => True) (System.initial db) s)
    (hmem : ⟨i, .create t dto, e⟩ ∈ s.world.log) (hfinal : e.Final (S := shop)) :
    AllOrNothing (s.world.own i) ↔ ¬ TelegramUnconfirmed dto (s.world.own i) := by
  have htrace := trace_of_runs (fun r _ => handler_placing r) hrun
  obtain ⟨h, hown, hlaw, hends⟩ := htrace.own_of_final hmem hfinal
  rw [hown]
  cases e with
  | threw err => exact allOrNothing_threw hlaw hends
  | returned tx =>
      have hlaw : PlacementLaw dto h (.returned tx) := hlaw
      have hboth := allOrNothing_returned hlaw hends
      exact ⟨fun _ => hboth.2, fun _ => hboth.1⟩
  | _ => exact hfinal.elim

def telegramStore : Database :=
  (Store.empty.set (.tenant 0) (some { Tenant.plain with
    telegramEnabled := true
    telegramBotToken := some "bot"
    telegramChatId := some "chat" })).set (.product 0) (some (Product.plain 1000 5))

def telegramMug : CreateOrder :=
  { CreateOrder.single none with
    customerEmail := some "ana@mugs.test"
    fulfillmentMethod := .telegram }

def StoreSystem.created (s : StoreSystem) : List (ℕ × FulfillmentMethod × Bool) :=
  s.world.log.filterMap fun entry => match entry.request, entry.event with
    | .create _ dto, .returned _ => some (entry.pid, dto.fulfillmentMethod, true)
    | .create _ dto, .threw _ => some (entry.pid, dto.fulfillmentMethod, false)
    | _, _ => none

def StoreSystem.messaged (s : StoreSystem) : Bool :=
  (s.world.own 0).any fun
    | .call (.enqueue (.telegramMessage _ _)) true => true
    | _ => false

theorem exists_of_created {s : StoreSystem} {i : ℕ} {method : FulfillmentMethod} {ok : Bool}
    (h : (i, method, ok) ∈ s.created) : ∃ t dto e, ⟨i, .create t dto, e⟩ ∈ s.world.log ∧
      dto.fulfillmentMethod = method ∧ e.Final (S := shop) ∧
      (ok = false → ∃ err, e = .threw err) := by
  obtain ⟨⟨j, r, e⟩, hmem, hentry⟩ := List.mem_filterMap.1 h
  simp only at hentry
  split at hentry
  · cases hentry
    exact ⟨_, _, _, hmem, rfl, trivial, nofun⟩
  · cases hentry
    exact ⟨_, _, _, hmem, rfl, trivial, fun _ => ⟨_, rfl⟩⟩
  · cases hentry

theorem not_silent_of_messaged {s : StoreSystem} (h : s.messaged = true) :
    ¬ Silent (s.world.own 0) := by
  obtain ⟨e, hmem, hmatch⟩ := List.any_eq_true.1 h
  split at hmatch
  · exact fun hsilent => hsilent _ hmem (.job _)
  · cases hmatch

/-- A Telegram order that is confirmed by mail. -/
theorem create_all_or_nothing_telegram : ∃ (s : StoreSystem) (dto : CreateOrder),
    dto.fulfillmentMethod = .telegram ∧ s.messaged = true ∧
      (AllOrNothing (s.world.own 0) ↔ ¬ TelegramUnconfirmed dto (s.world.own 0)) := by
  obtain ⟨s, hs, hend⟩ := System.exists_run_of_play handler (fun _ => true) anyOrder
    (System.initial telegramStore) (arriveWith { fresh := 60 } 0 (.create 0 telegramMug) 13)
    (fun s => (StoreSystem.created s, StoreSystem.messaged s))
    (by decide +kernel : _ = some ([(0, FulfillmentMethod.telegram, true)], true))
  obtain ⟨hcreated, hmessaged⟩ := Prod.mk.inj hend
  obtain ⟨t, dto, e, hmem, hmethod, hfinal, -⟩ :=
    exists_of_created (hcreated ▸ List.mem_singleton_self _)
  exact ⟨s, dto, hmethod, hmessaged, create_all_or_nothing (by simpa [anyOrder] using hs) hmem hfinal⟩

/-- The Telegram message of an order is queued, the queue of its confirmation mail
fails, and the order is rolled back: the message is about an order that is not there. -/
theorem create_leaves_message : ¬ ∀ (db : Database) (s : StoreSystem) (i : ℕ) (t : Id)
    (dto : CreateOrder) (e : Ev),
    Runs (fun _ => True) (fun _ _ _ _ => True) (System.initial db) s →
    ⟨i, .create t dto, e⟩ ∈ s.world.log → e.Final (S := shop) →
    AllOrNothing (s.world.own i) := by
  intro hall
  obtain ⟨s, hs, hend⟩ := System.exists_run_of_play handler (fun _ => true) anyOrder
    (System.initial telegramStore)
    (arriveWith { fresh := 60 } 0 (.create 0 telegramMug) 10 ++
      [stepsWith { fresh := 60, queues := false } 0 2])
    (fun s => (StoreSystem.created s, StoreSystem.messaged s))
    (by decide +kernel : _ = some ([(0, FulfillmentMethod.telegram, false)], true))
  obtain ⟨hcreated, hmessaged⟩ := Prod.mk.inj hend
  obtain ⟨t, dto, e, hmem, -, hfinal, hthrew⟩ :=
    exists_of_created (hcreated ▸ List.mem_singleton_self _)
  obtain ⟨err, rfl⟩ := hthrew rfl
  have hown := World.mem_own.2 ⟨_, hmem⟩
  have hwhole := hall telegramStore s 0 t dto _ (by simpa [anyOrder] using hs) hmem hfinal
  exact not_silent_of_messaged hmessaged (hwhole.threw err hown).1

end WhatStore
