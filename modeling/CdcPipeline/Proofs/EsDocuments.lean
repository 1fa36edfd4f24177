import CdcPipeline.Model.Debezium
import CdcPipeline.Model.EsIndexer

namespace CdcPipeline.Proofs.EsDocuments

open Library Text Model Debezium EsIndexer

variable (esUrl : Bytes)

def requestOf (e : Event) : HttpRequest :=
  match e.text with
  | some t => .put (docUrl esUrl e.id) t
  | none => .delete (docUrl esUrl e.id)

/-- What is left to do with the response. -/
def conclude (e : Event) (offset : Nat) (r : HttpResponse) : HttpProg Unit :=
  match e.image with
  | some _ =>
    if succeeded r.statusCode then log (.esIndexed e.id r.statusCode offset)
    else Prog.raise (bytes "Elasticsearch indexing failed: status " ++ intText r.statusCode ++
      bytes ", error: " ++ r.error ++ bytes ", response: " ++ r.text)
  | none =>
    if succeeded r.statusCode then log (.esDeleted e.id r.statusCode)
    else if r.statusCode ≠ 404 then
      Prog.raise (bytes "Elasticsearch delete failed: status " ++ intText r.statusCode ++
        bytes ", error: " ++ r.error)
    else return ()

/-- For a well-formed event `ProcessRecord` sends its request and reads the response. -/
theorem processRecord_event (e : Event) (key : Bytes) (offset : Nat) :
    processRecord esUrl e.record key offset =
      (request (requestOf esUrl e)).bind (conclude e offset) := by
  have hne := e.id_ne_nil
  unfold conclude requestOf
  cases himg : e.image with
  | some row =>
    obtain ⟨hdata, hrow⟩ := e.orderData_upsert himg
    obtain ⟨t, ht, htext⟩ := e.dump_image himg
    simp only [processRecord, hdata, processIndex, orderId_row hrow hne, ht, htext,
      Prog.ofExcept_ok, Prog.bind_eq, Prog.ret_bind, hne, if_false]
  | none =>
    obtain ⟨hdata, row, hbefore, hrow⟩ := e.orderData_delete himg
    have htext : e.text = none := by simp [Event.text, himg]
    simp only [processRecord, hdata, processDelete, hbefore, orderId_row hrow hne, htext,
      Prog.ofExcept_ok, Prog.bind_eq, Prog.ret_bind, hne, if_false]

/-- A response that is not thrown: the request was applied, or there was nothing to delete. -/
theorem conclude_cases (e : Event) (offset : Nat) (r : HttpResponse) :
    (∃ line, succeeded r.statusCode = true ∧ conclude e offset r = log line) ∨
    (∃ what, conclude e offset r = .raise what) ∨
      (e.image = none ∧ r.statusCode = 404 ∧ conclude e offset r = .ret ()) := by
  unfold conclude
  cases e.image with
  | some row =>
    by_cases hs : succeeded r.statusCode = true
    · exact Or.inl ⟨_, hs, if_pos hs⟩
    · exact Or.inr (Or.inl ⟨_, if_neg hs⟩)
  | none =>
    by_cases hs : succeeded r.statusCode = true
    · exact Or.inl ⟨_, hs, if_pos hs⟩
    · by_cases h404 : r.statusCode = 404
      · exact Or.inr (Or.inr ⟨rfl, h404, (if_neg hs).trans (if_neg (not_not.mpr h404))⟩)
      · exact Or.inr (Or.inl ⟨_, by simp only [hs, h404, ne_eq, not_false_eq_true, if_true]; rfl⟩)

variable {esUrl}

theorem docUrl_inj {id id' : Bytes} (h : docUrl esUrl id = docUrl esUrl id') : id = id' :=
  List.append_cancel_left h

theorem apply_self (e : Event) (docs : Documents) :
    Documents.apply (requestOf esUrl e) docs (docUrl esUrl e.id) = e.text := by
  unfold requestOf
  cases e.text with
  | some t => exact Function.update_self ..
  | none => exact Function.update_self ..

theorem apply_ne (e : Event) (docs : Documents) {id : Bytes} (h : id ≠ e.id) :
    Documents.apply (requestOf esUrl e) docs (docUrl esUrl id) = docs (docUrl esUrl id) := by
  have hne : docUrl esUrl id ≠ docUrl esUrl e.id := fun he => h (docUrl_inj he)
  unfold requestOf
  cases e.text with
  | some t => exact Function.update_of_ne hne _ _
  | none => exact Function.update_of_ne hne _ _

/-- A request of an event that Elasticsearch applies; how often its client asked and
what it was told does not matter. -/
structure Landing where
  event : Event
  key : Bytes
  offset : Nat

/-- An Elasticsearch that applies what it is sent. -/
def serve : Handler HttpOp HttpAns Documents
  | .request r, docs => (⟨Documents.status r docs, [], []⟩, Documents.apply r docs)
  | .log _, docs => ((), docs)

def land (esUrl : Bytes) (docs : Documents) (l : Landing) : Documents :=
  ((processRecord esUrl l.event.record l.key l.offset).run serve docs).2

def landed (esUrl : Bytes) (ls : List Landing) : Documents :=
  ls.foldl (land esUrl) Documents.empty

theorem land_eq (docs : Documents) (l : Landing) :
    land esUrl docs l = Documents.apply (requestOf esUrl l.event) docs := by
  rw [land, processRecord_event]
  simp only [request, Prog.call_bind, Prog.run_ask, serve]
  rcases conclude_cases l.event l.offset ⟨Documents.status (requestOf esUrl l.event) docs, [], []⟩
    with ⟨_, _, h⟩ | ⟨_, h⟩ | ⟨_, _, h⟩
  · rw [h]
    rfl
  · rw [h]
    rfl
  · rw [h]
    rfl

/-- With no version to go by, an order's document is what its last request left. -/
theorem foldl_land (ls : List Landing) (l : Landing) (docs : Documents) :
    (ls ++ [l]).foldl (land esUrl) docs (docUrl esUrl l.event.id) = l.event.text := by
  rw [List.foldl_append, List.foldl_cons, List.foldl_nil, land_eq, apply_self]

def IsNewest (events : List Event) (e : Event) : Prop :=
  e ∈ events ∧ ∀ e' ∈ events, e'.lsn ≤ e.lsn

/-- The document of an order ends as its newest event leaves it exactly when the
request applied last does the same as the newest event's. -/
theorem document_newest_iff (esUrl id : Bytes) (events : List Event) (ls : List Landing)
    (one : ∀ e ∈ events, e.id = id) (only : ∀ l ∈ ls, l.event ∈ events)
    (each : ∀ e ∈ events, ∃ l ∈ ls, l.event = e)
    (distinct : ∀ e ∈ events, ∀ e' ∈ events, e.lsn = e'.lsn → e = e')
    (e : Event) (newest : IsNewest events e) :
    landed esUrl ls (docUrl esUrl id) = e.text ↔
      ∃ l, ls.getLast? = some l ∧ (l.event.lsn = e.lsn ∨ l.event.text = e.text) := by
  have hne : ls ≠ [] := by
    obtain ⟨l, hl, -⟩ := each e newest.1
    exact List.ne_nil_of_mem hl
  obtain ⟨ls', l, rfl⟩ := (List.eq_nil_or_concat ls).resolve_left hne
  rw [List.concat_eq_append] at only ⊢
  have hmem := only l (by simp)
  have hdoc : landed esUrl (ls' ++ [l]) (docUrl esUrl id) = l.event.text := by
    rw [← one l.event hmem]
    exact foldl_land ls' l Documents.empty
  rw [hdoc, List.getLast?_concat]
  refine ⟨fun h => ⟨l, rfl, Or.inr h⟩, ?_⟩
  intro ⟨l', hl', hlast⟩
  obtain rfl := Option.some.inj hl'
  rcases hlast with hlsn | htext
  · rw [distinct l.event hmem e newest.1 hlsn]
  · exact htext

/-- A delete whose order's insert lands once more afterwards. -/
theorem late_put_resurrects :
    let insert := sampleUpsert 1 (by decide)
    let delete := sampleDelete 2 (by decide)
    let es := bytes "http://elasticsearch:9200"
    landed es [⟨insert, [], 0⟩, ⟨delete, [], 1⟩, ⟨insert, [], 0⟩] (docUrl es sampleId) ≠
      delete.text := by
  intro insert delete es
  rw [landed, show [(⟨insert, [], 0⟩ : Landing), ⟨delete, [], 1⟩, ⟨insert, [], 0⟩] =
    [⟨insert, [], 0⟩, ⟨delete, [], 1⟩] ++ [⟨insert, [], 0⟩] from rfl]
  intro h
  rw [show sampleId = (⟨insert, [], 0⟩ : Landing).event.id from rfl, foldl_land] at h
  contradiction

theorem document_newest_in_order :
    let insert := sampleUpsert 1 (by decide)
    let delete := sampleDelete 2 (by decide)
    let es := bytes "http://elasticsearch:9200"
    landed es [⟨insert, [], 0⟩, ⟨insert, [], 0⟩, ⟨delete, [], 1⟩] (docUrl es sampleId) =
      delete.text := by
  intro insert delete es
  have hle : IsNewest [insert, delete] delete := by
    refine ⟨by simp, ?_⟩
    simp only [List.forall_mem_cons]
    exact ⟨(by decide : (1 : Nat) ≤ 2), le_refl _, fun _ h => by contradiction⟩
  apply (document_newest_iff es sampleId [insert, delete] _ _ _ _ _ delete hle).mpr
  · exact ⟨⟨delete, [], 1⟩, rfl, Or.inl rfl⟩
  · intro e he
    simp only [List.mem_cons, List.not_mem_nil, or_false] at he
    rcases he with rfl | rfl <;> rfl
  · simp
  · simp only [List.forall_mem_cons]
    exact ⟨⟨⟨insert, [], 0⟩, by simp, rfl⟩, ⟨⟨delete, [], 1⟩, by simp, rfl⟩,
      fun _ h => by contradiction⟩
  · intro e he e' he' hlsn
    simp only [List.mem_cons, List.not_mem_nil, or_false] at he he'
    rcases he with rfl | rfl <;> rcases he' with rfl | rfl
    · rfl
    · exact absurd hlsn (by decide)
    · exact absurd hlsn (by decide)
    · rfl

end CdcPipeline.Proofs.EsDocuments
