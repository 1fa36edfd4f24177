import CdcPipeline.Proofs.ApiSteps

namespace CdcPipeline.Proofs.ApiCalls

open Library Text History Model ApiProcess Postgres ServedOrders GeneratedOrders ApiOutline ApiSteps

variable {ι κ : Type} [DecidableEq ι] [DecidableEq κ] {E : Setting κ} {table₀ : Table}
  {s s' : ApiProcess ι κ} {i j : ι} {x : Incoming}

section Frames

omit [DecidableEq κ]

theorem mine_none (h : s.transaction = none) (j : ι) : mine j s = none := by
  rw [mine, h]
  rfl

theorem mine_self {o : StoreOp} (h : s.transaction = some (i, o)) : mine i s = some o := by
  rw [mine, h, Option.bind_some, if_pos rfl]

theorem mine_other {o : StoreOp} (h : s.transaction = some (i, o)) (hj : j ≠ i) :
    mine j s = none := by
  rw [mine, h, Option.bind_some, if_neg hj.symm]

theorem mine_some {o : StoreOp} (h : mine i s = some o) : s.transaction = some (i, o) := by
  obtain ⟨⟨k, o'⟩, ht, hk⟩ := Option.bind_eq_some_iff.mp h
  obtain ⟨rfl, rfl⟩ : k = i ∧ o' = o := by simpa using hk
  exact ht

theorem others_rely (hg : Grows s s') (hf : ∀ j ≠ i, Frame j s s') :
    ∀ th ≠ Thread.server i, Rely th s s' := by
  intro th hth
  refine ⟨hg, ?_⟩
  rintro j rfl
  exact hf j fun h => hth (h ▸ rfl)

/-- A mark of this thread, while none of the others has a transaction open. -/
theorem frame_note (hij : j ≠ i) {m : (ι × Nat) → OrderMark ι} (hm : ∀ t, (m t).ticket = t)
    (hhist : s'.history = s.history ++ [m (i, s.turn i)]) (hturn : s'.turn j = s.turn j)
    (hmine : mine j s' = mine j s) (htable : (mine j s).isSome = true → s'.table = s.table) :
    Frame j s s' :=
  ⟨hturn, fun n => by rw [hhist, note_ne hij hm], hmine, htable⟩

/-- An effect of this thread, while no other has a transaction open. -/
theorem rely_act (hmine : ∀ j ≠ i, mine j s = none) (o : StoreOp) (h : s'.table = (s.act i o).table)
    (hhist : s'.history = (s.act i o).history) (hturn : s'.turn = s.turn) (hsent : s'.sent = s.sent)
    (htrans : ∀ j ≠ i, mine j s' = none) : ∀ th ≠ Thread.server i, Rely th s s' := by
  apply others_rely
  · refine ⟨fun id hid => ?_, [], by simp [hsent]⟩
    rw [h]
    exact OrderStore.step_found o hid
  · intro j hj
    refine frame_note (m := (.effect · o (OrderStore.step o s.table).1)) hj (fun _ => rfl) hhist
      (congrFun hturn j) ?_ ?_
    · rw [hmine j hj, htrans j hj]
    · intro hm
      rw [hmine j hj] at hm
      contradiction

theorem acted_marks {o : StoreOp} (hm : of (i, s.turn i) s.history = [.called (i, s.turn i) x]) :
    of (i, s.turn i) (s.act i o).history = [.called (i, s.turn i) x,
      .effect (i, s.turn i) o (OrderStore.step o s.table).1] := by
  have hself := note_self (s := s) (i := i) (m := (.effect · o (OrderStore.step o s.table).1))
    fun _ => rfl
  rw [hm] at hself
  exact hself

end Frames

section Server

theorem call_accept : (outline E table₀).Call (machine E) (.server i) (.server .accept)
    (Idle (κ := κ) i) (fun x s => Called i x s ∧ Clean E.lib x.request) := by
  rintro s x s' hi hidle ⟨hx, rfl⟩
  have hsent := hi.arrived x (List.mem_append_left _ hx)
  have hmarks : of (i, s.turn i) (s.history ++ [.called (i, s.turn i) x]) =
      [.called (i, s.turn i) x] := by
    rw [note_self (m := (.called · x)) fun _ => rfl, hidle.marks]
    rfl
  refine ⟨inv_accept hi hx hidle.marks, others_rely ⟨fun _ h => h, [], by simp [note]⟩ ?_,
    ⟨⟨hmarks, hidle.mine⟩, hsent⟩, ?_⟩
  · exact fun j hj => frame_note (m := (.called · x)) hj (fun _ => rfl) rfl rfl rfl fun _ => rfl
  · obtain ⟨sender, hs⟩ := hsent
    exact hi.clean _ (List.mem_of_getElem? hs)

theorem call_insert {sql : Bytes} {values : Values}
    (hsql : Statement.ofText sql = some (.insert values))
    (hm : ∀ row now, E.cols.row values now = .ok row →
      means E.lib E.cols x (.insert row) (.inserted true)) :
    (outline E table₀).Call (machine E) (.server i) (.server (.api (.exec sql)))
      (Called (κ := κ) i x) (fun r s => match r with
        | .ok _ => ∃ row now, E.cols.row values now = .ok row ∧
            Open E i x (.insert row) (.inserted true) s
        | .error _ => Called i x s) := by
  rintro s r s' hi hc ⟨hnone, hexec⟩
  cases hexec with
  | failed error => exact ⟨hi, fun th _ => rely_refl th s, hc⟩
  | selected is reads => rw [hsql] at is; cases is
  | other unknown rows table => rw [hsql] at unknown; cases unknown
  | @inserted values' row now is reads fresh =>
    obtain rfl : values = values' := by simpa using hsql.symm.trans is
    have hinv : Inv E table₀ (s.begin i (.insert row)) := inv_same hi rfl rfl rfl rfl rfl rfl
    refine ⟨hinv, others_rely ⟨fun _ h => h, [], by simp [begin]⟩ ?_, row, now, reads,
      ?_⟩
    · intro j hj
      refine ⟨rfl, fun _ => rfl, ?_, fun _ => rfl⟩
      rw [mine_none hnone, mine_other (s := s.begin i _) rfl hj]
    · refine ⟨⟨hc.1.marks, mine_self rfl⟩, hc.2, ?_, hm row now reads⟩
      have hstep := OrderStore.step_insert fresh
      exact congrArg Prod.fst hstep

theorem call_select (libs : Libraries E) {sql text : Bytes}
    (hsql : Statement.ofText sql = some (.select text))
    (hm : ∀ id r, E.cols.uuid text = .ok id → means E.lib E.cols x (.find id) r) :
    (outline E table₀).Call (machine E) (.server i) (.server (.api (.exec sql)))
      (Called (κ := κ) i x) (fun r s => match r with
        | .ok rows => ∃ id row, rows = row.toList.map OrderRow.selected ∧
            Acted E i x (.find id) (.row row) s
        | .error _ => Called i x s) := by
  rintro s r s' hi hc ⟨hnone, hexec⟩
  cases hexec with
  | failed error => exact ⟨hi, fun th _ => rely_refl th s, hc⟩
  | inserted is reads fresh => rw [hsql] at is; cases is
  | other unknown rows table => rw [hsql] at unknown; cases unknown
  | @selected text' id is reads =>
    obtain rfl : text = text' := by simpa using hsql.symm.trans is
    have hmeans := hm id (OrderStore.step (.find id) s.table).1 reads
    refine ⟨inv_act libs hi hc.1.marks hmeans, rely_act (fun j _ => mine_none hnone j) _ rfl rfl rfl
      rfl (fun j _ => mine_none (s := s.act i _) hnone j), id, s.table id, rfl, ?_⟩
    exact ⟨⟨acted_marks hc.1.marks, mine_none (s := s.act i _) hnone i⟩, hc.2, hmeans⟩

theorem call_update {newStatus orderId : Bytes}
    (hm : ∀ id status b, E.cols.varchar newStatus = .ok status → E.cols.uuid orderId = .ok id →
      means E.lib E.cols x (.setStatus id status) (.updated b)) :
    (outline E table₀).Call (machine E) (.server i)
      (.server (.execParams DatabaseClient.updateStatusSql [newStatus, orderId]))
      (Called (κ := κ) i x) (fun r s => match r with
        | .ok n => ∃ id status, Open E i x (.setStatus id status) (.updated (decide (0 < n))) s
        | .error _ => Called i x s) := by
  rintro s r s' hi hc ⟨hnone, hupdate⟩
  cases hupdate with
  | failed error => exact ⟨hi, fun th _ => rely_refl th s, hc⟩
  | @updated newStatus' orderId' status id is args readsStatus readsId =>
    obtain ⟨rfl, rfl⟩ : newStatus = newStatus' ∧ orderId = orderId' := by simpa using args
    have hinv : Inv E table₀ (s.begin i (.setStatus id status)) :=
      inv_same hi rfl rfl rfl rfl rfl rfl
    refine ⟨hinv, others_rely ⟨fun _ h => h, [], by simp [begin]⟩ ?_, id, status, ?_⟩
    · intro j hj
      refine ⟨rfl, fun _ => rfl, ?_, fun _ => rfl⟩
      rw [mine_none hnone, mine_other (s := s.begin i _) rfl hj]
    · refine ⟨⟨hc.1.marks, mine_self rfl⟩, hc.2, ?_, hm id status _ readsStatus readsId⟩
      rw [OrderStore.setStatus_found]
      cases ht : s.table id with
      | none => simp [begin, ht]
      | some row => simp [begin, ht]

/-- Behind a commit that fails the operation may or may not have taken effect. -/
theorem call_commit (libs : Libraries E) {o : StoreOp} {r : StoreAns} :
    (outline E table₀).Call (machine E) (.server i) (.server (.api .commit))
      (Open (κ := κ) E i x o r) (fun res s => match res with
        | .ok _ => Acted E i x o r s
        | .error _ => Called i x s ∨ Acted E i x o r s) := by
  rintro s res s' hi ho ⟨o', htrans, hcommit⟩
  obtain rfl : o = o' := by simpa using (mine_some ho.at_.mine).symm.trans htrans
  have hclosed : Inv E table₀ s.close := inv_same hi rfl rfl rfl rfl rfl rfl
  have hmarks : of (i, s.close.turn i) s.close.history = [.called (i, s.close.turn i) x] :=
    ho.at_.marks
  have hanswers : (OrderStore.step o s.close.table).1 = r := ho.answers
  have hmeans : means E.lib E.cols x o (OrderStore.step o s.close.table).1 := hanswers ▸ ho.means
  have hinv : Inv E table₀ (s.close.act i o) := inv_act libs hclosed hmarks hmeans
  have hrely : ∀ th ≠ Thread.server i, Rely th s (s.close.act i o) :=
    rely_act (fun j hj => mine_other htrans hj) o rfl rfl rfl rfl
      (fun j _ => mine_none (s := s.close.act i o) rfl j)
  have hacted : Acted E i x o r (s.close.act i o) := by
    refine ⟨⟨?_, mine_none (s := s.close.act i o) rfl i⟩, ho.sent, ho.means⟩
    have hboth := acted_marks (o := o) hmarks
    rw [hanswers] at hboth
    exact hboth
  cases hcommit with
  | committed => exact ⟨hinv, hrely, hacted⟩
  | inDoubt error => exact ⟨hinv, hrely, Or.inr hacted⟩
  | rolledBack error =>
    refine ⟨hclosed, others_rely ⟨fun _ h => h, [], by simp [close]⟩ ?_,
      Or.inl ⟨⟨hmarks, ?_⟩, ho.sent⟩⟩
    · intro j hj
      refine ⟨rfl, fun _ => rfl, ?_, fun _ => rfl⟩
      rw [mine_other htrans hj, mine_none (s := s.close) rfl]
    · exact mine_none (s := s.close) rfl i

theorem call_respond {a : Response} :
    (outline E table₀).Call (machine E) (.server i) (.server (.respond x.connection a))
      (Answerable (κ := κ) E i x a) (fun _ => Idle i) := by
  rintro s - s' hi ha rfl
  have hmine : mine i s = none := by
    rcases ha with ⟨hc, -⟩ | ⟨o, r, hacted, -⟩
    · exact hc.1.mine
    · exact hacted.at_.mine
  refine ⟨inv_respond hi ha, others_rely ⟨fun _ h => h, [], by simp [note]⟩ ?_, ?_, hmine⟩
  · intro j hj
    exact frame_note (m := (.answered · a)) hj (fun _ => rfl) rfl (Function.update_of_ne hj ..) rfl
      fun _ => rfl
  · have hahead := note_ahead (i := i) (m := (.answered · a)) hi (fun _ => rfl)
      (Nat.lt_succ_self (s.turn i))
    simpa [note] using hahead

/-- The calls that show the shared state neither to the thread nor to the others. -/
def Muted : ServerOp → Prop
  | .accept | .api (.exec _) | .api .commit | .execParams _ _ | .respond _ _ => False
  | _ => True

theorem muted_still {op : ServerOp} (h : Muted op) {a : ServerAns op}
    (hc : (machine E).call (.server i) (.server op) s a s') : s' = s := by
  cases op with
  | api op => cases op with
    | exec _ => exact absurd h id
    | commit => exact absurd h id
    | _ => exact hc
  | log e => exact hc
  | _ => exact absurd h id

theorem call_muted {op : ServerOp} (h : Muted op) {P : ApiProcess ι κ → Prop} :
    (outline E table₀).Call (machine E) (.server i) (.server op) P (fun _ => P) := by
  intro s a s' hi hP hc
  obtain rfl := muted_still h hc
  exact ⟨hi, fun th _ => rely_refl th s', hP⟩

end Server

end CdcPipeline.Proofs.ApiCalls
