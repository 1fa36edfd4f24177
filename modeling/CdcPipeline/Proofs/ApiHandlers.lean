import CdcPipeline.Proofs.ApiCalls

namespace CdcPipeline.Proofs.ApiHandlers

open Library Text History Model ApiProcess ApiServer Postgres ServedOrders GeneratedOrders
  ApiOutline ApiCalls

variable {ι κ : Type} [DecidableEq ι] [DecidableEq κ] {E : Setting κ} {table₀ : Table}
  {s : ApiProcess ι κ} {i : ι} {x : Incoming}

/-- The machine as a server thread's own calls have it, and as a handler's have it. -/
abbrev serverMachine (E : Setting κ) :
    Machine (Thread ι κ) ServerOp ServerAns Exn Point (ApiProcess ι κ) :=
  (machine E).under .server fun _ a => a

abbrev apiMachine (E : Setting κ) : Machine (Thread ι κ) ApiOp ApiAns Exn Point (ApiProcess ι κ) :=
  (serverMachine E).under .api fun _ a => a

section Stable

omit [DecidableEq κ]

theorem called_stable : (outline E table₀).Stable (.server i) (Called (κ := κ) i x) :=
  fun _ _ hr h => h.stable hr

theorem open_stable {o : StoreOp} {r : StoreAns} :
    (outline E table₀).Stable (.server i) (Open (κ := κ) E i x o r) :=
  fun _ _ hr h => h.stable hr

theorem acted_stable {o : StoreOp} {r : StoreAns} :
    (outline E table₀).Stable (.server i) (Acted (κ := κ) E i x o r) :=
  fun _ _ hr h => h.stable hr

theorem answerable_stable {a : Response} :
    (outline E table₀).Stable (.server i) (Answerable (κ := κ) E i x a) :=
  fun _ _ hr h => h.stable hr

end Stable

section Muted

/-- The calls of a handler other than those to Postgres. -/
def Quiet (op : ApiOp) : Prop := Muted (.api op)

theorem call_quiet {o : ApiOp} (h : Quiet o) {P : ApiProcess ι κ → Prop} :
    (outline E table₀).Call (apiMachine E) (.server i) o P (fun _ => P) :=
  ((call_muted h).under).under

variable {α : Type} {Q : α → ApiProcess ι κ → Prop} {X : Exn → ApiProcess ι κ → Prop}

/-- A line is logged on the way. -/
theorem safe_log {P : ApiProcess ι κ → Prop} (stable : (outline E table₀).Stable (.server i) P)
    (hP : P s) {e : ApiLog} {p : ApiProg α}
    (hp : ∀ t, P t → (outline E table₀).safe (apiMachine E) (.server i) p Q X t) :
    (outline E table₀).safe (apiMachine E) (.server i) ((ApiProg.log e).bind fun _ => p) Q X s :=
  Outline.safe_ask stable (call_quiet (o := .log e) trivial) hP fun _ t ht => hp t ht

/-- `catch (const std::exception& e) { log; throw; }` -/
theorem safe_logged {p : ApiProg α} {e : Bytes → ApiLog}
    (stable : ∀ exn, (outline E table₀).Stable (.server i) (X exn))
    (h : (outline E table₀).safe (apiMachine E) (.server i) p Q X s) :
    (outline E table₀).safe (apiMachine E) (.server i) (p.logged e) Q X s := by
  refine Outline.safe_seq (Outline.safe_attempt h) ?_
  intro r t ht
  cases r with
  | ok a => exact ht
  | error exn => exact safe_log (stable exn) ht fun _ h => h

end Muted

section Create

/-- What a body of `POST` is taken apart into. -/
def orderParts (lib : Conversions) (body : Bytes) : Except Bytes (Bytes × Json × Json) := do
  let j ← lib.parse body
  let userId ← j.at_ (bytes "user_id") >>= getString
  let totalAmount ← j.at_ (bytes "total_amount") >>= getNumber
  let items ← j.at_ (bytes "items")
  return (userId, totalAmount, items)

variable {lib : Conversions} {body : Bytes}

theorem orderText_eq : orderText lib body = orderParts lib body >>= fun p => do
    let text ← p.2.2.dump
    return (p.1, lib.formatDouble p.2.1, text) := by
  simp only [orderText, orderParts, bind_assoc, pure_bind]

theorem ofJson_bind {α β : Type} (r : Except Bytes α) (f : α → Except Bytes β) :
    ApiProg.ofJson (r >>= f) = (ApiProg.ofJson r).bind fun a => ApiProg.ofJson (f a) := by
  cases r <;> rfl

theorem createOrder_eq : createOrder lib body =
    (ApiProg.ofJson (orderParts lib body)).bind fun p => do
      let orderId ← DatabaseClient.createOrder lib p.1 p.2.1 p.2.2
      ApiProg.log (.apiOrderCreated orderId)
      let text ← ApiProg.ofJson (createdDoc orderId).dump
      return ⟨201, text⟩ := by
  simp only [createOrder, orderParts, ofJson_bind, Prog.bind_bind, Prog.bind_eq]
  rfl

/-- The row that an exception leaves behind a `POST`, if it leaves one. -/
def Doubtful (E : Setting κ) (i : ι) (x : Incoming) (s : ApiProcess ι κ) : Prop :=
  Called i x s ∨ ∃ row, Acted E i x (.insert row) (.inserted true) s

omit [DecidableEq κ] in
theorem doubtful_stable :
    (outline E table₀).Stable (.server i) (Doubtful (κ := κ) E i x) := by
  rintro s s' hr (h | ⟨row, h⟩)
  · exact Or.inl (h.stable hr)
  · exact Or.inr ⟨row, h.stable hr⟩

omit [DecidableEq κ] in
theorem doubtful_error (hroute : x.request.route = some (.createOrder body))
    (hparts : ∃ v, orderText E.lib body = .ok v) (h : Doubtful E i x s) :
    Answerable E i x internalServerError s := by
  rcases h with h | ⟨row, h⟩
  · exact Or.inl ⟨h, (failed_create hroute).mpr (Or.inr ⟨rfl, hparts⟩)⟩
  · exact Or.inr ⟨_, _, h, Or.inr rfl⟩

/-- The id a row is inserted under is the one it was given. -/
theorem row_id {cols : ColumnTypes} {v : Values} {now : Bytes} {row : OrderRow}
    (h : cols.row v now = .ok row) : cols.uuid v.id = .ok row.id := by
  obtain ⟨id, hid, h⟩ := Json.bind_ok.mp h
  obtain ⟨_, -, h⟩ := Json.bind_ok.mp h
  obtain ⟨_, -, h⟩ := Json.bind_ok.mp h
  obtain ⟨_, -, h⟩ := Json.bind_ok.mp h
  obtain ⟨_, -, h⟩ := Json.bind_ok.mp h
  obtain rfl := Except.ok.inj h
  exact hid

/-- The order is inserted and committed, or it is in doubt. -/
theorem safe_insert (libs : Libraries E) (hroute : x.request.route = some (.createOrder body))
    (hclean : Clean E.lib x.request) {u : Bytes} {amount items : Json} {text : Bytes}
    (htext : orderText E.lib body = .ok (u, E.lib.formatDouble amount, text))
    (hitems : items.dump = .ok text) (h : Called i x s) :
    (outline E table₀).safe (apiMachine E) (.server i)
      (DatabaseClient.createOrder E.lib u amount items)
      (fun id s => (∃ draws, id = generateUuid draws) ∧
        ∃ row, row.id = id ∧ Acted E i x (.insert row) (.inserted true) s)
      (fun e s => (∃ what, e = .other what) ∧ Doubtful E i x s) s := by
  rw [Clean, hroute] at hclean
  obtain ⟨hq, h0, hi⟩ := hclean _ _ _ htext
  refine Outline.safe_ask called_stable (call_quiet (o := .draw) trivial) h ?_
  intro draws t ht
  refine safe_logged (fun _ s s' hr h => ⟨h.1, doubtful_stable s s' hr h.2⟩) ?_
  have hsql := ofText_insert draws (E.lib.formatDouble amount)
    (fun c hc => Json.printable_dump items hitems hc) hq h0 hi
  simp only [hitems, ApiProg.ofJson, Except.mapError, Prog.ofExcept_ok, Prog.bind_eq, Prog.ret_bind]
  refine Outline.safe_ask called_stable ((call_insert hsql ?_).under.under) ht ?_
  · intro row now hrow
    refine (means_create hroute).mpr ⟨row, rfl, ⟨_, _, _, draws, now, htext, ?_, hrow⟩, rfl⟩
    exact (Except.ok.inj ((libs.standard draws).symm.trans (row_id hrow))).symm
  · intro r t ht
    cases r with
    | error e => exact ⟨⟨e, rfl⟩, Or.inl ht⟩
    | ok rows =>
      obtain ⟨row, now, hrow, ho⟩ := ht
      have hid : row.id = generateUuid draws :=
        (Except.ok.inj ((libs.standard draws).symm.trans (row_id hrow))).symm
      refine Outline.safe_ask open_stable ((call_commit libs).under.under) ho ?_
      intro res t ht
      cases res with
      | error e =>
        rcases ht with ht | ht
        · exact ⟨⟨e, rfl⟩, Or.inl ht⟩
        · exact ⟨⟨e, rfl⟩, Or.inr ⟨row, ht⟩⟩
      | ok _ => exact safe_log acted_stable ht fun t ht => ⟨⟨draws, rfl⟩, row, hid, ht⟩

/-- Items that are not UTF-8 raise before there is a statement. -/
theorem safe_undumped {u : Bytes} {amount items : Json} {e : Bytes} (hitems : items.dump = .error e)
    (h : Called i x s) : (outline E table₀).safe (apiMachine E) (.server i)
      (DatabaseClient.createOrder E.lib u amount items) (fun _ _ => False)
      (fun exn s => exn = .json e ∧ Called i x s) s := by
  refine Outline.safe_ask called_stable (call_quiet (o := .draw) trivial) h ?_
  intro draws t ht
  refine safe_logged (fun _ s s' hr h => ⟨h.1, h.2.stable hr⟩) ?_
  simp only [hitems, ApiProg.ofJson, Except.mapError, Prog.ofExcept_error, Prog.bind_eq,
    Prog.raise_bind]
  exact ⟨rfl, ht⟩

theorem createdDoc_dump (draws : Draws) :
    ∃ text, (createdDoc (generateUuid draws)).dump = .ok text := by
  rw [Json.dump_ok_iff]
  simp only [createdDoc, Json.utf8, Json.utf8Members, uuid_utf8]
  decide

theorem safe_createOrder (libs : Libraries E) (hroute : x.request.route = some (.createOrder body))
    (hclean : Clean E.lib x.request) (h : Called i x s) :
    (outline E table₀).safe (apiMachine E) (.server i) (createOrder E.lib body)
      (Answerable E i x) (fun e s => match e with
        | .json _ => Answerable E i x invalidPayload s
        | .other _ => Answerable E i x internalServerError s) s := by
  rw [createOrder_eq]
  have hparts : orderText E.lib body = _ := orderText_eq
  cases hp : orderParts E.lib body with
  | error e =>
    rw [hp] at hparts
    exact Or.inl ⟨h, (failed_create hroute).mpr (Or.inl ⟨rfl, e, hparts⟩)⟩
  | ok p =>
    obtain ⟨u, amount, items⟩ := p
    rw [hp] at hparts
    change (outline E table₀).safe _ _
      ((DatabaseClient.createOrder E.lib u amount items).bind _) _ _ _
    cases hd : items.dump with
    | error e =>
      have htext : orderText E.lib body = .error e := by
        rw [hparts]
        change (Except.bind items.dump _) = _
        rw [hd]
        rfl
      refine Outline.safe_seq (Outline.safe_mono (fun _ _ h => h) ?_ (safe_undumped hd h)) ?_
      · rintro exn t ⟨rfl, ht⟩
        exact Or.inl ⟨ht, (failed_create hroute).mpr (Or.inl ⟨rfl, e, htext⟩)⟩
      · exact fun _ _ h => absurd h id
    | ok text =>
      have htext : orderText E.lib body = .ok (u, E.lib.formatDouble amount, text) := by
        rw [hparts]
        change (Except.bind items.dump _) = _
        rw [hd]
        rfl
      refine Outline.safe_seq (Outline.safe_mono (fun _ _ h => h) ?_
        (safe_insert libs hroute hclean htext hd h)) ?_
      · rintro exn t ⟨⟨what, rfl⟩, ht⟩
        exact doubtful_error hroute ⟨_, htext⟩ ht
      · rintro _ t ⟨⟨draws, rfl⟩, row, hid, ht⟩
        refine safe_log acted_stable ht ?_
        intro t ht
        obtain ⟨text, hcreated⟩ := createdDoc_dump draws
        simp only [hcreated, ApiProg.ofJson, Except.mapError, Prog.ofExcept_ok]
        exact Or.inr ⟨_, _, ht, Or.inl ⟨text, hid ▸ hcreated, rfl⟩⟩

theorem safe_postOrder (libs : Libraries E) (hroute : x.request.route = some (.createOrder body))
    (hclean : Clean E.lib x.request) (h : Called i x s) :
    (outline E table₀).safe (apiMachine E) (.server i) (postOrder E.lib body)
      (Answerable E i x) (fun _ _ => False) s := by
  refine Outline.safe_seq (Outline.safe_attempt (safe_createOrder libs hroute hclean h)) ?_
  intro r t ht
  cases r with
  | ok a => exact ht
  | error e => cases e with
    | json what => exact safe_log answerable_stable ht fun _ h => h
    | other what => exact safe_log answerable_stable ht fun _ h => h

end Create

end CdcPipeline.Proofs.ApiHandlers
