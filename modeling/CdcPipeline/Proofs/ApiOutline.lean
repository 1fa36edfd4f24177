import CdcPipeline.Library.Outline
import CdcPipeline.Proofs.GeneratedOrders

namespace CdcPipeline.Proofs.ApiOutline

open Library Text History Model ApiProcess ServedOrders

variable {ι κ : Type}

/-- What the server and the load generator write for one another. -/
inductive Written (doubles : FloatText → Prop) : Json → Prop where
  | created (orderId : Bytes) : Written doubles (createdDoc orderId)
  | status (status : Bytes) : Written doubles (.obj [(bytes "status", .str status)])
  | payload {amount} (isDouble : doubles amount) (userId : Bytes) (product qty : Nat) :
      Written doubles (LoadGenerator.payload userId amount product qty)

/-- `parse` reads back what `dump` wrote, a UUID in its standard form is stored as it is, and
requests from outside stay within the literals of their statements. -/
structure Libraries (E : Setting κ) : Prop where
  reads : ∀ j t, Written E.doubles j → j.dump = .ok t → E.lib.parse t = .ok j
  standard : ∀ draws, E.cols.uuid (generateUuid draws) = .ok (generateUuid draws)
  clients : ∀ r, E.clients r → Clean E.lib r

section Assertions

variable (E : Setting κ) (table₀ : Table)

/-- The request is the one sent on its connection. -/
def Sent (x : Incoming) (s : ApiProcess ι κ) : Prop :=
  ∃ sender, s.sent[x.connection]? = some (sender, x.request)

def ByWorker (x : Incoming) (s : ApiProcess ι κ) : Prop :=
  ∃ k : κ, s.sent[x.connection]? = some (.worker k, x.request)

/-- The requests that wait and those that were taken. -/
def arrived (s : ApiProcess ι κ) : List Incoming := s.inbox ++ requests s.history

/-- An order of the table, under an id that was generated. -/
def Known (id : Bytes) (s : ApiProcess ι κ) : Prop :=
  (∃ draws, id = generateUuid draws) ∧ (s.table id).isSome = true

/-- The ids that a worker has kept, 512 at most, are those of orders. -/
def Kept (createdIds : List Bytes) (s : ApiProcess ι κ) : Prop :=
  createdIds.length ≤ 512 ∧ ∀ id ∈ createdIds, Known id s

/-- What a worker sends: an order, or a status of an order that is there. -/
inductive FromWorker (s : ApiProcess ι κ) (r : Request) : Prop where
  | post {amount product qty} (draws : Draws) (isDouble : E.doubles amount)
      (is : LoadGenerator.postRequest (generateUuid draws) amount product qty = .ok r)
  | patch {id status} (known : Known id s) (is : LoadGenerator.patchRequest id status = .ok r)

structure Inv [DecidableEq ι] (s : ApiProcess ι κ) : Prop where
  linear : Linearized OrderStore.step (rules E.lib E.cols) table₀ s.history s.table
  ahead : ∀ i n, s.turn i < n → of (i, n) s.history = []
  clean : ∀ y ∈ s.sent, Clean E.lib y.2
  workers : ∀ k r, (.worker k, r) ∈ s.sent → FromWorker E s r
  arrived : ∀ x ∈ arrived s, Sent x s
  once : ((ApiOutline.arrived s).map Incoming.connection).Nodup
  found : ∀ t x o b, .called t x ∈ s.history → ByWorker x s →
    .effect t o (.updated b) ∈ s.history → b = true
  outbox : ∀ n a, (n, a) ∈ s.outbox → ∃ t x, x.connection = n ∧ .called t x ∈ s.history ∧
    .answered t a ∈ s.history

section Threads

variable [DecidableEq ι]

/-- The operation whose transaction this thread has open. -/
def mine (i : ι) (s : ApiProcess ι κ) : Option StoreOp :=
  s.transaction.bind fun x => if x.1 = i then some x.2 else none

/-- How far a server thread is with its request. -/
structure At (i : ι) (marks : (ι × Nat) → List (OrderMark ι)) (o : Option StoreOp)
    (s : ApiProcess ι κ) : Prop where
  marks : of (i, s.turn i) s.history = marks (i, s.turn i)
  mine : mine i s = o

def Idle (i : ι) : ApiProcess ι κ → Prop := At i (fun _ => []) none

def Called (i : ι) (x : Incoming) (s : ApiProcess ι κ) : Prop :=
  At i (fun t => [.called t x]) none s ∧ Sent x s

/-- The operation is done in a transaction that is still open, and it answers so. -/
structure Open (i : ι) (x : Incoming) (o : StoreOp) (r : StoreAns) (s : ApiProcess ι κ) :
    Prop where
  at_ : At i (fun t => [.called t x]) (some o) s
  sent : Sent x s
  answers : (OrderStore.step o s.table).1 = r
  means : means E.lib E.cols x o r

structure Acted (i : ι) (x : Incoming) (o : StoreOp) (r : StoreAns) (s : ApiProcess ι κ) :
    Prop where
  at_ : At i (fun t => [.called t x, .effect t o r]) none s
  sent : Sent x s
  means : means E.lib E.cols x o r

/-- This response may be given now. -/
def Answerable (i : ι) (x : Incoming) (a : Response) (s : ApiProcess ι κ) : Prop :=
  (Called i x s ∧ failed E.lib x a) ∨ ∃ o r, Acted E i x o r s ∧ done E.lib x o r a

/-- Nobody touches a thread's marks, or its transaction, or the table under it. -/
structure Frame (i : ι) (s s' : ApiProcess ι κ) : Prop where
  turn : s'.turn i = s.turn i
  marks : ∀ n, of (i, n) s'.history = of (i, n) s.history
  mine : mine i s' = mine i s
  table : (ApiOutline.mine i s).isSome = true → s'.table = s.table

/-- Orders stay, and so does what was sent. -/
structure Grows (s s' : ApiProcess ι κ) : Prop where
  orders : ∀ id, (s.table id).isSome = true → (s'.table id).isSome = true
  sent : ∃ more, s'.sent = s.sent ++ more

structure Rely (th : Thread ι κ) (s s' : ApiProcess ι κ) : Prop where
  grows : Grows s s'
  frame : ∀ i, th = .server i → Frame i s s'

/-- What holds of a thread at a node. -/
def node (th : Thread ι κ) (p : Point) (s : ApiProcess ι κ) : Prop :=
  match th, p with
  | .server i, .start => Idle i s
  | .worker _, .looping createdIds => Kept createdIds s
  | _, _ => True

def outline : Outline (Thread ι κ) Point (ApiProcess ι κ) :=
  ⟨Inv E table₀, Rely, node⟩

end Threads

end Assertions

section Stability

variable {E : Setting κ} {table₀ : Table} {s s' : ApiProcess ι κ} {i : ι} {x : Incoming}

theorem Grows.refl (s : ApiProcess ι κ) : Grows s s := ⟨fun _ h => h, [], by simp⟩

theorem Grows.trans {s₁ s₂ : ApiProcess ι κ} (h : Grows s s₁) (h' : Grows s₁ s₂) : Grows s s₂ := by
  obtain ⟨more, hm⟩ := h.sent
  obtain ⟨more', hm'⟩ := h'.sent
  exact ⟨fun id hid => h'.orders id (h.orders id hid), more ++ more', by rw [hm', hm]; simp⟩

theorem Grows.get {n : Nat} {y : Sender κ × Request} (h : Grows s s')
    (hn : s.sent[n]? = some y) : s'.sent[n]? = some y := by
  obtain ⟨more, hm⟩ := h.sent
  rw [hm, List.getElem?_append_left (List.getElem?_eq_some_iff.mp hn).1, hn]

theorem Sent.grow (h : Sent x s) (hg : Grows s s') : Sent x s' := by
  obtain ⟨sender, hs⟩ := h
  exact ⟨sender, hg.get hs⟩

theorem Known.grow {id : Bytes} (h : Known id s) (hg : Grows s s') : Known id s' :=
  ⟨h.1, hg.orders id h.2⟩

theorem Kept.grow {createdIds : List Bytes} (h : Kept createdIds s) (hg : Grows s s') :
    Kept createdIds s' :=
  ⟨h.1, fun id hid => (h.2 id hid).grow hg⟩

theorem FromWorker.grow {r : Request} (h : FromWorker E s r) (hg : Grows s s') :
    FromWorker E s' r := by
  cases h with
  | post draws isDouble is => exact .post draws isDouble is
  | patch known is => exact .patch (known.grow hg) is

/-- What was sent on a connection does not change hands. -/
theorem ByWorker.back (h : ByWorker x s') (hs : Sent x s) (hg : Grows s s') : ByWorker x s := by
  obtain ⟨k, hk⟩ := h
  obtain ⟨sender, hsender⟩ := hs
  have he := hg.get hsender
  rw [hk] at he
  obtain ⟨rfl, -⟩ := Prod.mk.inj (Option.some.inj he)
  exact ⟨k, hsender⟩

variable [DecidableEq ι]

theorem Frame.trans {s₁ s₂ : ApiProcess ι κ} (h : Frame i s s₁) (h' : Frame i s₁ s₂) :
    Frame i s s₂ where
  turn := h'.turn.trans h.turn
  marks n := (h'.marks n).trans (h.marks n)
  mine := h'.mine.trans h.mine
  table hm := (h'.table (h.mine ▸ hm)).trans (h.table hm)

theorem At.stable {marks : (ι × Nat) → List (OrderMark ι)} {o : Option StoreOp}
    (h : At i marks o s) (hf : Frame i s s') : At i marks o s' where
  marks := by rw [hf.turn, hf.marks, h.marks]
  mine := hf.mine.trans h.mine

theorem Called.stable (h : Called i x s) (hr : Rely (.server i) s s') : Called i x s' :=
  ⟨h.1.stable (hr.frame i rfl), h.2.grow hr.grows⟩

theorem Open.stable {o : StoreOp} {r : StoreAns} (h : Open E i x o r s)
    (hr : Rely (.server i) s s') : Open E i x o r s' where
  at_ := h.at_.stable (hr.frame i rfl)
  sent := h.sent.grow hr.grows
  answers := by
    have ht := (hr.frame i rfl).table (by rw [h.at_.mine]; rfl)
    rw [ht, h.answers]
  means := h.means

theorem Acted.stable {o : StoreOp} {r : StoreAns} (h : Acted E i x o r s)
    (hr : Rely (.server i) s s') : Acted E i x o r s' :=
  ⟨h.at_.stable (hr.frame i rfl), h.sent.grow hr.grows, h.means⟩

theorem Answerable.stable {a : Response} (h : Answerable E i x a s)
    (hr : Rely (.server i) s s') : Answerable E i x a s' := by
  rcases h with ⟨hc, hf⟩ | ⟨o, r, ha, hd⟩
  · exact Or.inl ⟨hc.stable hr, hf⟩
  · exact Or.inr ⟨o, r, ha.stable hr, hd⟩

theorem node_stable (th : Thread ι κ) (p : Point) :
    (outline (ι := ι) E table₀).Stable th (node th p) := by
  intro s s' hr h
  cases th with
  | server i =>
    cases p with
    | start => exact At.stable h (hr.frame i rfl)
    | _ => trivial
  | worker k =>
    cases p with
    | looping ids => exact Kept.grow h hr.grows
    | _ => trivial
  | main => trivial

theorem rely_refl (th : Thread ι κ) (s : ApiProcess ι κ) : Rely th s s :=
  ⟨.refl s, fun _ _ => ⟨rfl, fun _ => rfl, rfl, fun _ => rfl⟩⟩

theorem rely_trans {th : Thread ι κ} {s₁ s₂ : ApiProcess ι κ} (h : Rely th s s₁)
    (h' : Rely th s₁ s₂) : Rely th s s₂ :=
  ⟨h.grows.trans h'.grows, fun i hi => (h.frame i hi).trans (h'.frame i hi)⟩

end Stability

end CdcPipeline.Proofs.ApiOutline
