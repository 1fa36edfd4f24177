import CdcPipeline.Proofs.ApiOutline

namespace CdcPipeline.Proofs.ApiSteps

open Library Text History Model ApiProcess ServedOrders GeneratedOrders ApiOutline

variable {ι κ : Type} {E : Setting κ} {table₀ : Table} {s s' : ApiProcess ι κ} {i j : ι}
  {x : Incoming}

section Workers

theorem worker_clean (libs : Libraries E) {r : Request} (h : FromWorker E s r) :
    Clean E.lib r := by
  cases h with
  | patch known is =>
    obtain ⟨⟨draws, rfl⟩, -⟩ := known
    rw [Clean, (patch_route is).1]
    trivial
  | post draws isDouble is =>
    obtain ⟨hroute, hd⟩ := post_route is
    obtain ⟨text, htext, hq⟩ := payload_reads hd (libs.reads _ _ (.payload isDouble ..) hd)
    rw [Clean, hroute]
    intro u d t h
    obtain ⟨rfl, rfl, rfl⟩ := Except.ok.inj (htext.symm.trans h) |> fun h => by
      simpa using h
    exact ⟨uuid_not_mem draws (by decide) (by decide), uuid_not_mem draws (by decide) (by decide),
      hq⟩

variable [DecidableEq ι]

/-- A worker's update finds its order. -/
theorem worker_found (libs : Libraries E) (hi : Inv E table₀ s) (hw : ByWorker x s) {o : StoreOp}
    {r : StoreAns} (hm : means E.lib E.cols x o r) {b : Bool}
    (hb : (OrderStore.step o s.table).1 = .updated b) : b = true := by
  obtain ⟨k, hk⟩ := hw
  have hfrom := hi.workers k x.request (List.mem_of_getElem? hk)
  cases hfrom with
  | post draws isDouble is =>
    obtain ⟨row, rfl, -⟩ := (means_create (post_route is).1).mp hm
    cases ht : s.table row.id with
    | none => rw [OrderStore.step_insert ht] at hb; cases hb
    | some old => rw [OrderStore.step_insert_taken ht] at hb; cases hb
  | patch known is =>
    obtain ⟨⟨draws, rfl⟩, hthere⟩ := known
    obtain ⟨id, status, rfl, -, hid⟩ := (means_update (patch_route is).1).mp hm
    rw [uuid_cString, libs.standard] at hid
    obtain rfl := Except.ok.inj hid
    rw [OrderStore.setStatus_found, hthere] at hb
    exact (StoreAns.updated.inj hb).symm

end Workers

section Steps

theorem arrived_accept (hx : x ∈ s.inbox) :
    (arrived { s.note i (.called · x) with inbox := s.inbox.erase x }).Perm (arrived s) := by
  have hlast : requests (s.history ++ [.called (i, s.turn i) x]) = requests s.history ++ [x] :=
    requests_append ..
  refine (List.Perm.of_eq (congrArg _ hlast)).trans ?_
  rw [← List.append_assoc]
  exact (List.perm_append_singleton x _).trans ((List.perm_cons_erase hx).symm.append_right _)

theorem arrived_note {m : (ι × Nat) → OrderMark ι} (hm : ∀ t, (m t).request = none) :
    arrived (s.note i m) = arrived s := by
  have hlast : requests (s.note i m).history = requests s.history := by
    rw [show (s.note i m).history = s.history ++ [m (i, s.turn i)] from rfl, requests_append]
    simp [requests, hm]
  rw [arrived, hlast]
  rfl

theorem arrived_act (o : StoreOp) : arrived (s.act i o) = arrived s :=
  arrived_note (s := s) (i := i) (m := (.effect · o (OrderStore.step o s.table).1)) fun _ => rfl

theorem mem_note {m : (ι × Nat) → OrderMark ι} {m' : OrderMark ι}
    (h : m' ∈ (s.note i m).history) : m' ∈ s.history ∨ m' = m (i, s.turn i) :=
  (List.mem_append.mp h).imp_right List.mem_singleton.mp

variable [DecidableEq ι]

theorem note_ne (hij : j ≠ i) {m : (ι × Nat) → OrderMark ι} (hm : ∀ t, (m t).ticket = t) (n : Nat) :
    of (j, n) (s.history ++ [m (i, s.turn i)]) = of (j, n) s.history := by
  apply of_snoc_ne
  rw [hm]
  intro h
  exact hij (Prod.mk.inj h).1.symm

theorem note_self {m : (ι × Nat) → OrderMark ι} (hm : ∀ t, (m t).ticket = t) :
    of (i, s.turn i) (s.history ++ [m (i, s.turn i)]) =
      of (i, s.turn i) s.history ++ [m (i, s.turn i)] :=
  of_snoc_self (hm _) _

theorem note_ahead (hi : Inv E table₀ s) {m : (ι × Nat) → OrderMark ι} (hm : ∀ t, (m t).ticket = t)
    {n : Nat} (hn : s.turn j < n) : of (j, n) (s.history ++ [m (i, s.turn i)]) = [] := by
  rw [of_snoc_ne, hi.ahead j n hn]
  rw [hm]
  intro h
  obtain ⟨rfl, rfl⟩ := Prod.mk.inj h
  exact absurd hn (Nat.lt_irrefl _)

theorem outbox_note (hi : Inv E table₀ s) (m : (ι × Nat) → OrderMark ι) {n : Nat} {a : Response}
    (h : (n, a) ∈ s.outbox) : ∃ t x, x.connection = n ∧ .called t x ∈ (s.note i m).history ∧
      .answered t a ∈ (s.note i m).history := by
  obtain ⟨t, y, hn, hc, hans⟩ := hi.outbox n a h
  exact ⟨t, y, hn, List.mem_append_left _ hc, List.mem_append_left _ hans⟩

/-- The transaction, and what the main thread has, are no part of the invariant. -/
theorem inv_same (hi : Inv E table₀ s) (ht : s'.table = s.table) (hturn : s'.turn = s.turn)
    (hh : s'.history = s.history) (hsent : s'.sent = s.sent) (hin : s'.inbox = s.inbox)
    (hout : s'.outbox = s.outbox) : Inv E table₀ s' := by
  have hg : Grows s s' := ⟨fun _ h => ht ▸ h, [], by simp [hsent]⟩
  have harrived : ApiOutline.arrived s' = ApiOutline.arrived s := by
    rw [ApiOutline.arrived, hin, hh]
    rfl
  exact {
    linear := by rw [hh, ht]; exact hi.linear
    ahead := by rw [hturn, hh]; exact hi.ahead
    clean := by rw [hsent]; exact hi.clean
    workers := fun k r h => (hi.workers k r (hsent ▸ h)).grow hg
    arrived := fun y hy => (hi.arrived y (harrived ▸ hy)).grow hg
    once := by rw [harrived]; exact hi.once
    found := by
      intro t y o b hc hw he
      rw [ByWorker, hsent] at hw
      rw [hh] at hc he
      exact hi.found t y o b hc hw he
    outbox := by rw [hout, hh]; exact hi.outbox }

/-- A request is taken off the inbox. -/
theorem inv_accept (hi : Inv E table₀ s) (hx : x ∈ s.inbox) (hm : of (i, s.turn i) s.history = []) :
    Inv E table₀ { s.note i (.called · x) with inbox := s.inbox.erase x } where
  linear := hi.linear.call hm x
  ahead _ _ hn := note_ahead (i := i) (m := (.called · x)) hi (fun _ => rfl) hn
  clean := hi.clean
  workers k r h := (hi.workers k r h).grow ⟨fun _ h => h, [], by simp [note]⟩
  arrived y hy := hi.arrived y ((arrived_accept hx).mem_iff.mp hy)
  once := ((arrived_accept hx).map _).nodup_iff.mpr hi.once
  found t y o b hc hw he := by
    have heff : .effect t o (.updated b) ∈ s.history :=
      (mem_note (m := (.called · x)) he).resolve_right nofun
    rcases mem_note (m := (.called · x)) hc with hc | hc
    · exact hi.found t y o b hc hw heff
    · obtain ⟨rfl, rfl⟩ := Mark.called.inj hc
      have hmem := mem_of heff rfl
      rw [Mark.ticket, hm] at hmem
      contradiction
  outbox _ _ ha := outbox_note (i := i) hi (.called · x) ha

/-- The operation of a request takes effect. -/
theorem inv_act (libs : Libraries E) (hi : Inv E table₀ s)
    (hm : of (i, s.turn i) s.history = [.called (i, s.turn i) x]) {o : StoreOp}
    (hmeans : means E.lib E.cols x o (OrderStore.step o s.table).1) :
    Inv E table₀ (s.act i o) where
  linear := hi.linear.act hm hmeans
  ahead _ _ hn := note_ahead (i := i) (m := (.effect · o (OrderStore.step o s.table).1)) hi
    (fun _ => rfl) hn
  clean := hi.clean
  workers k r h := (hi.workers k r h).grow
    ⟨fun _ h => OrderStore.step_found o h, [], by simp [act, note]⟩
  arrived y hy := hi.arrived y (arrived_act (i := i) o ▸ hy)
  once := arrived_act (i := i) (s := s) o ▸ hi.once
  found t y o' b hc hw he := by
    have hcy : .called t y ∈ s.history := 
      (mem_note (m := (.effect · o (OrderStore.step o s.table).1)) hc).resolve_right nofun
    rcases mem_note (m := (.effect · o (OrderStore.step o s.table).1)) he with he | he
    · exact hi.found t y o' b hcy hw he
    · obtain ⟨rfl, rfl, hb⟩ := Mark.effect.inj he
      have hcalled : .called (i, s.turn i) x ∈ s.history := by
        apply mem_of_mem_of
        rw [hm]
        exact List.mem_singleton_self _
      obtain rfl := (hi.linear.lives _).request hcy hcalled
      exact worker_found libs hi hw hmeans hb.symm
  outbox _ _ ha := outbox_note (i := i) hi (.effect · o (OrderStore.step o s.table).1) ha

/-- An answer is given, and the thread's next request is another one. -/
theorem inv_respond (hi : Inv E table₀ s) {a : Response} (ha : Answerable E i x a s) :
    Inv E table₀ { s.note i (.answered · a) with
      turn := Function.update s.turn i (s.turn i + 1)
      outbox := (x.connection, a) :: s.outbox } where
  linear := by
    rcases ha with ⟨hc, hf⟩ | ⟨o, r, hacted, hd⟩
    · exact hi.linear.fail hc.1.marks hf
    · exact hi.linear.finish hacted.at_.marks hacted.means hd
  ahead j n hn := by
    apply note_ahead (i := i) (m := (.answered · a)) hi (fun _ => rfl)
    by_cases hj : j = i
    · subst hj
      simp only [Function.update_self] at hn
      omega
    · simpa only [Function.update_of_ne hj] using hn
  clean := hi.clean
  workers k r h := (hi.workers k r h).grow ⟨fun _ h => h, [], by simp [note]⟩
  arrived y hy := hi.arrived y (arrived_note (m := (.answered · a)) (i := i) (fun _ => rfl) ▸ hy)
  once := arrived_note (m := (.answered · a)) (i := i) (s := s) (fun _ => rfl) ▸ hi.once
  found t y o b hc hw he := hi.found t y o b
    ((mem_note (m := (.answered · a)) hc).resolve_right nofun) hw
    ((mem_note (m := (.answered · a)) he).resolve_right nofun)
  outbox n b hb := by
    rcases List.mem_cons.mp hb with h | hb
    · obtain ⟨rfl, rfl⟩ := Prod.mk.inj h
      have hcalled : .called (i, s.turn i) x ∈ s.history := by
        apply mem_of_mem_of (t := (i, s.turn i))
        rcases ha with ⟨hc, -⟩ | ⟨o, r, hacted, -⟩
        · rw [hc.1.marks]; simp
        · rw [hacted.at_.marks]; simp
      exact ⟨_, x, rfl, List.mem_append_left _ hcalled, by simp [note]⟩
    · exact outbox_note (i := i) hi (.answered · a) hb

/-- A request is sent, on a connection of its own. -/
theorem inv_send (hi : Inv E table₀ s) (sender : Sender κ) {r : Request} (hr : Clean E.lib r)
    (hw : ∀ k, sender = Sender.worker k → FromWorker E s r) :
    Inv E table₀ (s.send sender r) := by
  have hg : Grows s (s.send sender r) := ⟨fun _ h => h, [(sender, r)], rfl⟩
  have hlast : (s.send sender r).sent[s.sent.length]? = some (sender, r) := by simp [send]
  have hbelow : ∀ y ∈ ApiOutline.arrived s, y.connection < s.sent.length := by
    intro y hy
    obtain ⟨_, hs⟩ := hi.arrived y hy
    exact (List.getElem?_eq_some_iff.mp hs).1
  exact {
    linear := hi.linear
    ahead := hi.ahead
    clean := by
      intro y hy
      rcases List.mem_append.mp hy with hy | hy
      · exact hi.clean y hy
      · obtain rfl := List.mem_singleton.mp hy
        exact hr
    workers := by
      intro k r' hy
      rcases List.mem_append.mp hy with hy | hy
      · exact (hi.workers k r' hy).grow hg
      · obtain ⟨rfl, rfl⟩ := Prod.mk.inj (List.mem_singleton.mp hy)
        exact (hw k rfl).grow hg
    arrived := by
      intro y hy
      rcases List.mem_cons.mp hy with rfl | hy
      · exact ⟨sender, hlast⟩
      · exact (hi.arrived y hy).grow hg
    once := by
      refine List.nodup_cons.mpr ⟨?_, hi.once⟩
      intro hmem
      obtain ⟨y, hy, he⟩ := List.mem_map.mp hmem
      exact absurd (hbelow y hy) (by rw [he]; exact Nat.lt_irrefl _)
    found := by
      intro t y o b hc hby he
      have hsent : Sent y s := hi.arrived y (List.mem_append_right _ (mem_requests hc))
      exact hi.found t y o b hc (hby.back hsent hg) he
    outbox := hi.outbox }

end Steps

end CdcPipeline.Proofs.ApiSteps
