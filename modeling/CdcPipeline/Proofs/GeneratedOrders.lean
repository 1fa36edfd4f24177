import CdcPipeline.Library.JsonBytes
import CdcPipeline.Library.JsonString
import CdcPipeline.Model.Debezium
import CdcPipeline.Proofs.ServedOrders

namespace CdcPipeline.Proofs.GeneratedOrders

open Library Text Model LoadGenerator ServedOrders

section Uuid

variable (draws : Draws)

/-- The bytes of an id are lower-case digits and hyphens. -/
theorem uuid_forall {P : UInt8 → Prop} (digits : ∀ n < 16, P (Json.hexLower n)) (hyphen : P 45) :
    ∀ c ∈ generateUuid draws, P c := by
  have hdraws : ∀ i n, ∀ c ∈ (List.range' i n).map (fun j => Json.hexLower (draws.dis j)), P c := by
    intro i n c hc
    obtain ⟨j, -, rfl⟩ := List.mem_map.mp hc
    exact digits _ (draws.dis j).isLt
  have hhyphen : ∀ c ∈ bytes "-", P c := by
    intro c hc
    obtain rfl := List.mem_singleton.mp hc
    exact hyphen
  have hversion : ∀ c ∈ bytes "-4", P c := by
    intro c hc
    rcases List.mem_pair.mp hc with rfl | rfl
    · exact hyphen
    · exact digits 4 (by omega)
  intro c h
  simp only [generateUuid, List.mem_append, List.mem_singleton] at h
  rcases h with ((((((((h | h) | h) | h) | h) | h) | rfl) | h) | h) | h
  · exact hdraws 0 8 c h
  · exact hhyphen c h
  · exact hdraws 8 4 c h
  · exact hversion c h
  · exact hdraws 12 3 c h
  · exact hhyphen c h
  · exact digits _ (by omega)
  · exact hdraws 15 3 c h
  · exact hhyphen c h
  · exact hdraws 18 12 c h

/-- An id has the text form of a UUID. -/
theorem uuid_isUuid : isUuid (generateUuid draws) = true := by
  have hall : (generateUuid draws).all (fun b => isHex b || b = 45) = true :=
    List.all_eq_true.mpr (uuid_forall draws (by decide) (by decide))
  have hlength : (generateUuid draws).length = 36 := rfl
  have hhyphens : (generateUuid draws)[8]? = some 45 ∧ (generateUuid draws)[13]? = some 45 ∧
      (generateUuid draws)[18]? = some 45 ∧ (generateUuid draws)[23]? = some 45 :=
    ⟨rfl, rfl, rfl, rfl⟩
  rw [isUuid, hall, hlength, hhyphens.1, hhyphens.2.1, hhyphens.2.2.1, hhyphens.2.2.2]
  rfl

theorem uuid_not_mem {c : UInt8} (digits : ∀ n < 16, Json.hexLower n ≠ c) (hyphen : 45 ≠ c) :
    c ∉ generateUuid draws :=
  fun h => uuid_forall draws (P := (· ≠ c)) digits hyphen c h rfl

theorem uuid_utf8 : Utf8.valid (generateUuid draws) = true := by
  have hplain : (generateUuid draws).all JsonString.plain = true :=
    List.all_eq_true.mpr (uuid_forall draws (by decide) (by decide))
  have hclean := JsonString.clean_plain hplain
  simp only [JsonString.clean, Bool.and_eq_true] at hclean
  exact hclean.1

theorem uuid_cString : cString (generateUuid draws) = generateUuid draws :=
  cString_eq (uuid_not_mem draws (by decide) (by decide))

end Uuid

section Requests

theorem below_orders (rest : Bytes) :
    Request.belowOrders (bytes "/api/v1/orders/" ++ rest) = some rest := by
  have hprefix : (Request.ordersPath ++ [47]).isPrefixOf (bytes "/api/v1/orders/" ++ rest) := by
    rw [List.isPrefixOf_iff_prefix]
    exact List.prefix_append (bytes "/api/v1/orders/") rest
  rw [Request.belowOrders, if_pos hprefix]
  rfl

/-- The path of a status is read back, for an id without a slash. -/
theorem match_status {id : Bytes} (h : Request.isSegment id = true) :
    Request.matchStatus (bytes "/api/v1/orders/" ++ id ++ bytes "/status") = some id := by
  have hsuffix : (bytes "/status").isSuffixOf (id ++ bytes "/status") := by
    rw [List.isSuffixOf_iff_suffix]
    exact List.suffix_append id _
  rw [Request.matchStatus, List.append_assoc, below_orders, Option.bind_some, if_pos hsuffix,
    List.length_append, Nat.add_sub_cancel, List.take_left]
  simp [h]

theorem uuid_segment (draws : Draws) : Request.isSegment (generateUuid draws) = true := by
  have hslash := uuid_not_mem draws (c := 47) (by decide) (by decide)
  have hne : generateUuid draws ≠ [] := List.ne_nil_of_length_pos (by exact Nat.succ_pos 35)
  simp [Request.isSegment, hslash, hne]

theorem patch_route {draws : Draws} {status : Bytes} {r : Request}
    (h : patchRequest (generateUuid draws) status = .ok r) :
    r.route = some (.updateStatus (generateUuid draws) r.body) ∧
      (Json.obj [(bytes "status", .str status)]).dump = .ok r.body := by
  obtain ⟨body, hb, hr⟩ := Json.bind_ok.mp h
  obtain rfl := Except.ok.inj hr
  refine ⟨?_, hb⟩
  simp only [Request.route, match_status (uuid_segment draws), Option.map_some]

variable {userId : Bytes} {amount : FloatText} {product qty : Nat} {r : Request}

theorem post_route (h : postRequest userId amount product qty = .ok r) :
    r.route = some (.createOrder r.body) ∧
      (payload userId amount product qty).dump = .ok r.body := by
  obtain ⟨body, hb, hr⟩ := Json.bind_ok.mp h
  obtain rfl := Except.ok.inj hr
  have hpath : bytes "/api/v1/orders" = Request.ordersPath := rfl
  refine ⟨?_, hb⟩
  simp only [Request.route, hpath, if_pos]

variable {lib : Conversions}

theorem status_reads {status body : Bytes}
    (h : lib.parse body = .ok (.obj [(bytes "status", .str status)])) :
    statusText lib body = .ok status := by
  rw [statusText, h]
  rfl

theorem digits_no_quote (n : Nat) : (natText n).contains 39 = false := by
  rw [List.contains_eq_mem, decide_eq_false_iff_not]
  intro h
  have hd := List.all_eq_true.mp (natText_all n) 39 h
  exact absurd hd (by decide)

/-- The items that are sent have no apostrophe. -/
theorem items_no_quote : (Json.arr [.obj [
    (bytes "product_id", .str (bytes "prod_" ++ natText (product % 20 + 1))),
    (bytes "qty", .int (qty % 5 + 1 : Nat))]]).mentions 39 = false := by
  have hproduct : (bytes "prod_" ++ natText (product % 20 + 1)).contains 39 = false := by
    rw [List.contains_eq_mem, decide_eq_false_iff_not, List.mem_append, not_or]
    have hdigits := digits_no_quote (product % 20 + 1)
    rw [List.contains_eq_mem, decide_eq_false_iff_not] at hdigits
    exact ⟨by decide, hdigits⟩
  simp only [Json.mentions, Json.mentionsItems, Json.mentionsMembers, hproduct]
  decide

/-- What a payload puts into the statement. -/
theorem payload_reads {body : Bytes} (hd : (payload userId amount product qty).dump = .ok body)
    (h : lib.parse body = .ok (payload userId amount product qty)) :
    ∃ text, orderText lib body = .ok (userId, lib.formatDouble (.float amount), text) ∧
      39 ∉ text := by
  have hutf8 := (Json.dump_ok_iff _).mp ⟨body, hd⟩
  rw [payload, Json.utf8] at hutf8
  obtain ⟨text, ht⟩ := (Json.dump_ok_iff _).mpr
    (Json.utf8Members_lookup (k := bytes "items") hutf8 rfl)
  refine ⟨text, ?_, ?_⟩
  · rw [orderText, h]
    change (Except.bind (Json.dump _) fun text => Except.ok (userId, _, text)) = _
    rw [ht]
    rfl
  · rw [Json.quote_dump _ ht, items_no_quote]
    decide

end Requests

end CdcPipeline.Proofs.GeneratedOrders
