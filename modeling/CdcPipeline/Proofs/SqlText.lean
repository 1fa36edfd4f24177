import CdcPipeline.Library.SqlLiteral
import CdcPipeline.Proofs.ApiPrograms

namespace CdcPipeline.Proofs.SqlText

open Library Text Sql Model DatabaseClient ApiPrograms

/-- `INSERT INTO orders (id, user_id, total_amount, status, items_jsonb) VALUES (` -/
def insertWords : List Token :=
  [.word (bytes "INSERT"), .word (bytes "INTO"), .word (bytes "orders"), .punctuation 40,
    .word (bytes "id"), .punctuation 44, .word (bytes "user_id"), .punctuation 44,
    .word (bytes "total_amount"), .punctuation 44, .word (bytes "status"), .punctuation 44,
    .word (bytes "items_jsonb"), .punctuation 41, .word (bytes "VALUES"), .punctuation 40]

/-- `SELECT id, user_id, total_amount, status, items_jsonb FROM orders WHERE id =` -/
def selectWords : List Token :=
  [.word (bytes "SELECT"), .word (bytes "id"), .punctuation 44, .word (bytes "user_id"),
    .punctuation 44, .word (bytes "total_amount"), .punctuation 44, .word (bytes "status"),
    .punctuation 44, .word (bytes "items_jsonb"), .word (bytes "FROM"), .word (bytes "orders"),
    .word (bytes "WHERE"), .word (bytes "id"), .operator (bytes "=")]

/-- The statement that inserts this order, each string one literal. -/
def insertTokens (orderId userId : Bytes) (totalAmount : Decimal) (items : Bytes) : List Token :=
  insertWords ++ [.string orderId, .punctuation 44, .string userId, .punctuation 44] ++
    decimalTokens totalAmount ++
    [.punctuation 44, .string (bytes "CREATED"), .punctuation 44, .string items, .punctuation 41]

def selectTokens (orderId : Bytes) : List Token := selectWords ++ [.string orderId]

/-- The two texts up to the quote that opens their first literal. -/
def insertBegin : Bytes :=
  bytes "INSERT INTO orders (id, user_id, total_amount, status, items_jsonb) VALUES ('"

def selectBegin : Bytes :=
  bytes "SELECT id, user_id, total_amount, status, items_jsonb FROM orders WHERE id = '"

theorem feed_insert : feed .base insertBegin = some (insertWords, .literal []) := by
  decide

theorem feed_select : feed .base selectBegin = some (selectWords, .literal []) := by
  decide

/-- The statement from the user's closing quote on. -/
def afterUser (totalAmount : Decimal) (items : Bytes) : Bytes :=
  bytes ", " ++ totalAmount.text ++ bytes ", 'CREATED', '" ++ items ++ bytes "')"

theorem amount_bytes (d : Decimal) {c : UInt8} (h : c ∈ d.text) : 32 ≤ c ∧ c ≠ 39 := by
  have digits : ∀ s : Bytes, s.all isDigit = true → s.all isNumberByte = true := by
    intro s hs
    rw [List.all_eq_true] at hs ⊢
    intro b hb
    simp only [isNumberByte, hs b hb, Bool.true_or]
  have hpoint : d.point.all isNumberByte = true := by
    unfold Decimal.point
    split
    · rfl
    · rw [List.all_cons, digits _ d.fraction_digits]
      rfl
  have hpower : d.power.all isNumberByte = true := by
    unfold Decimal.power
    split
    · rfl
    · rename_i negative ds he
      rw [List.all_cons, List.all_cons, digits _ (d.exponent_digits _ he)]
      cases negative <;> rfl
  have hunsigned : d.unsigned.all isNumberByte = true := by
    rw [Decimal.unsigned, List.all_append, List.all_append, digits _ d.whole_digits, hpoint, hpower]
    rfl
  have htext : d.text.all isNumberByte = true := by
    unfold Decimal.text
    split
    · rw [List.all_cons, hunsigned]
      rfl
    · exact hunsigned
  exact Json.number_byte htext h

/-- The numeral and the status are read, up to the quote that opens the items. -/
theorem run_amount (d : Decimal) (s : Bytes) :
    run .base (d.text ++ (bytes ", 'CREATED', '" ++ s)) = (run (.literal []) s).map
      ((decimalTokens d ++
        [.punctuation 44, .string (bytes "CREATED"), .punctuation 44]) ++ ·) := by
  obtain ⟨n, hn, hd⟩ := feed_decimal d
  have hnext : feed (.numeral d.unsigned n) (bytes ", 'CREATED', '") =
      some ([.number d.unsigned, .punctuation 44, .string (bytes "CREATED"), .punctuation 44],
        .literal []) := by
    rcases hn with rfl | rfl | rfl <;> rfl
  rw [run_feed hd, run_feed hnext, Option.map_map]
  congr 1
  funext ts
  unfold decimalTokens
  cases d.negative <;> rfl

theorem run_afterUser (u : Bytes) (d : Decimal) (items : Bytes) :
    run (.behind u .quote) (afterUser d items) = (run (.literal []) (items ++ bytes "')")).map
      ((.string u :: .punctuation 44 :: decimalTokens d ++
        [.punctuation 44, .string (bytes "CREATED"), .punctuation 44]) ++ ·) := by
  have hcomma : feed (.behind u .quote) (bytes ", ") = some ([.string u, .punctuation 44], .base) :=
    rfl
  rw [afterUser, List.append_assoc, List.append_assoc, List.append_assoc, run_feed hcomma,
    run_amount, Option.map_map]
  rfl

theorem not_newline {c : UInt8} (h : 32 ≤ c) : isNewline c = false := by
  by_contra hn
  rw [Bool.not_eq_false] at hn
  simp only [isNewline, Bool.or_eq_true, decide_eq_true_eq] at hn
  rcases hn with rfl | rfl <;> exact absurd h (by decide)

/-- What stands behind the user's literal is printable, if the items are. -/
theorem afterUser_printable {d : Decimal} {items : Bytes} (hitems : ∀ c ∈ items, 32 ≤ c) {c : UInt8}
    (h : c ∈ afterUser d items) : 32 ≤ c := by
  have hcomma : ∀ c ∈ bytes ", ", 32 ≤ c := forall_bytes (by decide)
  have hstatus : ∀ c ∈ bytes ", 'CREATED', '", 32 ≤ c := forall_bytes (by decide)
  have hend : ∀ c ∈ bytes "')", 32 ≤ c := forall_bytes (by decide)
  simp only [afterUser, List.mem_append] at h
  rcases h with (((h | h) | h) | h) | h
  · exact hcomma c h
  · exact (amount_bytes d h).1
  · exact hstatus c h
  · exact hitems c h
  · exact hend c h

theorem closes_user (d : Decimal) {items : Bytes} (hitems : ∀ c ∈ items, 32 ≤ c) :
    Closes (afterUser d items) where
  here s ts h := by
    rw [run_afterUser] at h
    obtain ⟨ts', -, rfl⟩ := Option.map_eq_some_iff.mp h
    exact ⟨_, rfl⟩
  comma s ts h := by
    -- the next quote is that of the status, which no quote or blank follows
    have hq : 39 ∉ bytes ", " ++ d.text ++ bytes ", " := by
      simp only [List.mem_append, not_or]
      exact ⟨⟨by decide, fun hc => (amount_bytes d hc).2 rfl⟩, by decide⟩
    have hsplit : afterUser d items = (bytes ", " ++ d.text ++ bytes ", ") ++
        39 :: (bytes "CREATED', '" ++ items ++ bytes "')") := by
      have hstatus : bytes ", 'CREATED', '" = bytes ", " ++ 39 :: bytes "CREATED', '" := rfl
      simp only [afterUser, hstatus]
      simp
    have hnext : ∀ t, step (.behind t .quote) 67 = some ([.string t], .word [67]) := fun _ => rfl
    rw [hsplit, run_literal hq, show bytes "CREATED', '" = 67 :: bytes "REATED', '" from rfl] at h
    simp only [List.cons_append, run, hnext] at h
    obtain ⟨ts', -, rfl⟩ := Option.map_eq_some_iff.mp h
    exact ⟨bytes ", " ++ d.text, ts', by simp [show bytes ", " = [44, 32] from rfl]⟩
  line c h := not_newline (afterUser_printable hitems h)

theorem closes_items : Closes (bytes ")") where
  here s ts h := ⟨_, (Option.some.inj h).symm⟩
  comma s ts h := by cases h
  line := forall_bytes (by decide)

theorem closes_select : Closes [] where
  here s ts h := ⟨[], (Option.some.inj h).symm⟩
  comma s ts h := by cases h
  line := by simp

/-- The generated id has neither a quote nor a NUL. -/
theorem uuid_bytes (draws : Draws) {c : UInt8} (h : c ∈ generateUuid draws) : c ≠ 39 ∧ c ≠ 0 := by
  have hhex : ∀ n < 16, Json.hexLower n ≠ 39 ∧ Json.hexLower n ≠ 0 := by decide
  have hdraw : ∀ i n, c ∈ (List.range' i n).map (fun j => Json.hexLower (draws.dis j)) →
      c ≠ 39 ∧ c ≠ 0 := by
    intro i n hc
    obtain ⟨j, -, rfl⟩ := List.mem_map.mp hc
    exact hhex _ (draws.dis j).isLt
  have hdash : ∀ c ∈ bytes "-", c ≠ 39 ∧ c ≠ 0 := forall_bytes (by decide)
  have hversion : ∀ c ∈ bytes "-4", c ≠ 39 ∧ c ≠ 0 := forall_bytes (by decide)
  simp only [generateUuid, List.mem_append, List.mem_singleton] at h
  rcases h with ((((((((h | h) | h) | h) | h) | h) | h) | h) | h) | h
  · exact hdraw 0 8 h
  · exact hdash c h
  · exact hdraw 8 4 h
  · exact hversion c h
  · exact hdraw 12 3 h
  · exact hdash c h
  · exact h ▸ hhex _ (Nat.add_lt_add_left draws.dis2.isLt 8 |>.trans (by decide))
  · exact hdraw 15 3 h
  · exact hdash c h
  · exact hdraw 18 12 h

/-- The statement, split at the quote that opens the user's literal. -/
theorem lex_insert (draws : Draws) (userId : Bytes) (d : Decimal) (items : Bytes) :
    lex (cString (insertOrder (generateUuid draws) userId d.text items)) =
      (run (.literal []) (cString (userId ++ 39 :: afterUser d items))).map
        ((insertWords ++ [.string (generateUuid draws), .punctuation 44]) ++ ·) := by
  have hid : 39 ∉ generateUuid draws ∧ 0 ∉ generateUuid draws :=
    ⟨fun h => (uuid_bytes draws h).1 rfl, fun h => (uuid_bytes draws h).2 rfl⟩
  have hnul : 0 ∉ insertBegin ++ generateUuid draws ++ bytes "', '" := by
    simp only [List.mem_append, not_or]
    exact ⟨⟨by decide, hid.2⟩, by decide⟩
  have hsplit : insertOrder (generateUuid draws) userId d.text items =
      insertBegin ++ generateUuid draws ++ bytes "', '" ++ (userId ++ 39 :: afterUser d items) := by
    simp only [insertOrder, insertBegin, afterUser, show bytes "', " = 39 :: bytes ", " from rfl]
    simp
  have hcomma : feed (.literal (generateUuid draws)) (bytes "', '") =
      some ([.string (generateUuid draws), .punctuation 44], .literal []) := rfl
  rw [hsplit, cString_append hnul, lex, List.append_assoc, List.append_assoc, run_feed feed_insert,
    run_feed (feed_literal hid.1 []), List.nil_append, run_feed hcomma, Option.map_map,
    Option.map_map]
  rfl

/-- What libpq is given lexes to the statement that is meant, for these texts and no others. -/
theorem insert_iff (draws : Draws) (userId : Bytes) (d : Decimal) {items : Bytes}
    (hitems : ∀ c ∈ items, 32 ≤ c) :
    lex (cString (insertOrder (generateUuid draws) userId d.text items)) =
        some (insertTokens (generateUuid draws) userId d items) ↔
      39 ∉ userId ∧ 0 ∉ userId ∧ 39 ∉ items := by
  have hafter : 0 ∉ 39 :: afterUser d items := by
    rw [List.mem_cons, not_or]
    exact ⟨by decide, fun h => absurd (afterUser_printable hitems h) (by decide)⟩
  have htokens : insertTokens (generateUuid draws) userId d items =
      (insertWords ++ [.string (generateUuid draws), .punctuation 44]) ++
        ((.string userId :: .punctuation 44 :: decimalTokens d ++ [.punctuation 44,
          .string (bytes "CREATED"), .punctuation 44]) ++ [.string items, .punctuation 41]) := by
    simp [insertTokens]
  have hend : bytes "')" = 39 :: bytes ")" := rfl
  rw [lex_insert, htokens]
  constructor
  · intro h
    obtain ⟨ts, hts, he⟩ := Option.map_eq_some_iff.mp h
    obtain rfl := List.append_cancel_left he
    have hrest := List.not_mem_of_not_mem_cons hafter
    obtain ⟨hq, h0⟩ := literal_clean (closes_user d hitems) hrest hts
    refine ⟨hq, h0, fun hi => ?_⟩
    rw [cString_append h0, cString_eq hafter, run_literal hq, List.nil_append, run_afterUser] at hts
    obtain ⟨ts', hts', he'⟩ := Option.map_eq_some_iff.mp hts
    obtain rfl := List.append_cancel_left he'
    rw [hend] at hts'
    exact literal_ne closes_items hi hts'
  · rintro ⟨hq, h0, hi⟩
    have hclose : run (.behind items .quote) (bytes ")") = some [.string items, .punctuation 41] :=
      rfl
    rw [cString_append h0, cString_eq hafter, run_literal hq, List.nil_append, run_afterUser, hend,
      run_literal hi, List.nil_append, hclose]
    rfl

theorem select_iff (orderId : Bytes) :
    lex (cString (selectOrder orderId)) = some (selectTokens orderId) ↔
      39 ∉ orderId ∧ 0 ∉ orderId := by
  have hbegin : 0 ∉ selectBegin := by decide
  have hlex : lex (cString (selectOrder orderId)) =
      (run (.literal []) (cString (orderId ++ 39 :: []))).map (selectWords ++ ·) := by
    have hsplit : selectOrder orderId = selectBegin ++ (orderId ++ 39 :: []) :=
      List.append_assoc _ _ _
    rw [hsplit, cString_append hbegin, lex, run_feed feed_select]
  rw [hlex, selectTokens]
  constructor
  · intro h
    obtain ⟨ts, hts, he⟩ := Option.map_eq_some_iff.mp h
    obtain rfl := List.append_cancel_left he
    exact literal_clean closes_select List.not_mem_nil hts
  · rintro ⟨hq, h0⟩
    rw [cString_append h0, cString_eq (by decide : (0 : UInt8) ∉ [39]), run_literal hq]
    rfl

/-- The call hands libpq one statement, and it lexes to these tokens. -/
def Meant {α : Type} (p : ApiProg α) (E : Backends) (s : Served) (ts : List Token) : Prop :=
  ∃ sql, (p.run E.answer s).2.statements = sql :: s.statements ∧ lex sql = some ts

section Calls

variable (lib : Conversions) {E : Backends}

theorem createOrder_hands (userId : Bytes) (totalAmount : Json) {items : Json} {itemsStr : Bytes}
    (hdump : items.dump = .ok itemsStr) (s : Served) :
    ((createOrder lib userId totalAmount items).run E.answer s).2.statements =
      cString (insertOrder (generateUuid E.draws) userId (lib.formatDouble totalAmount).text
        itemsStr) :: s.statements := by
  simp only [createOrder, exec, ApiProg.call, ApiProg.ofJson, ApiProg.ofPqxx, hdump,
    Except.mapError, Prog.bind_eq, Prog.pure_eq, Prog.call_bind, Prog.ask_bind, Prog.ofExcept_ok,
    Prog.ret_bind, Prog.run_ask, Backends.answer, run_logged]
  cases E.rows (cString (insertOrder (generateUuid E.draws) userId
    (lib.formatDouble totalAmount).text itemsStr)) with
  | error what => rfl
  | ok rows =>
    simp only [Prog.ofExcept_ok, Prog.ret_bind, Prog.run_ask, Backends.answer]
    cases E.committed with
    | error what => rfl
    | ok _ => rfl

theorem getOrderById_hands (orderId : Bytes) (s : Served) :
    ((getOrderById lib orderId).run E.answer s).2.statements =
      cString (selectOrder orderId) :: s.statements := by
  simp only [getOrderById, exec, ApiProg.call, ApiProg.ofPqxx, Prog.bind_eq, Prog.pure_eq,
    Prog.call_bind, Prog.ask_bind, Prog.run_ask, Backends.answer, run_logged]
  rcases E.rows (cString (selectOrder orderId)) with what | _ | ⟨row, rows⟩
  · rfl
  · rfl
  · have hsilent : ((orderJson lib row).bind fun order => .ret (some order)).Asks Silent :=
      (asks_orderJson row).bind fun _ => trivial
    simp only [Except.mapError, Prog.ofExcept_ok, Prog.ret_bind]
    rw [Prog.run_silent hsilent]

end Calls

/-- What a request puts into the two statements stays within its literals exactly if it
has no apostrophe, and no NUL where one can come. -/
theorem request_data_iff (lib : Conversions) (E : Backends) (s : Served) :
    (∀ userId totalAmount items itemsStr, items.dump = .ok itemsStr →
      (Meant (createOrder lib userId totalAmount items) E s (insertTokens (generateUuid E.draws)
          userId (lib.formatDouble totalAmount) itemsStr) ↔
        39 ∉ userId ∧ 0 ∉ userId ∧ items.mentions 39 = false)) ∧
    ∀ orderId, (Meant (getOrderById lib orderId) E s (selectTokens orderId) ↔
      39 ∉ orderId ∧ 0 ∉ orderId) := by
  have one : ∀ {sql : Bytes} {ts : List Token},
      (∃ sql', sql :: s.statements = sql' :: s.statements ∧ lex sql' = some ts) ↔
        lex sql = some ts := by
    intro sql ts
    constructor
    · rintro ⟨sql', he, hl⟩
      obtain rfl := (List.cons.inj he).1
      exact hl
    · exact fun hl => ⟨sql, rfl, hl⟩
  refine ⟨?_, ?_⟩
  · intro userId totalAmount items itemsStr hdump
    rw [Meant, createOrder_hands lib userId totalAmount hdump, one,
      insert_iff _ _ _ (fun c hc => Json.printable_dump items hdump hc),
      Json.quote_dump items hdump, Bool.not_eq_true]
  · intro orderId
    rw [Meant, getOrderById_hands, one, select_iff]

/-- A Postgres that accepts what it is given. -/
def sampleBackends : Backends where
  reply _ := some .nil
  rows _ := .ok []
  draws := sampleDraws
  committed := .ok ()

theorem request_data_once :
    Meant (createOrder sampleConversions (bytes "alice") (.int 1) (.arr [])) sampleBackends
      ⟨true, []⟩ (insertTokens (generateUuid sampleDraws) (bytes "alice") sampleDecimal
        (bytes "[]")) :=
  ((request_data_iff sampleConversions sampleBackends ⟨true, []⟩).1 (bytes "alice") (.int 1)
    (.arr []) (bytes "[]") rfl).mpr ⟨by decide, by decide, rfl⟩

/-- A name with an apostrophe is not inserted as it is. -/
theorem apostrophe_breaks :
    ¬ Meant (createOrder sampleConversions (bytes "O'Brien") (.int 1) (.arr [])) sampleBackends
      ⟨true, []⟩ (insertTokens (generateUuid sampleDraws) (bytes "O'Brien") sampleDecimal
        (bytes "[]")) := by
  rintro ⟨sql, hs, hl⟩
  rw [createOrder_hands sampleConversions (bytes "O'Brien") (.int 1)
    (show (Json.arr []).dump = .ok (bytes "[]") from rfl)] at hs
  obtain rfl := (List.cons.inj hs).1
  have hitems : ∀ c ∈ bytes "[]", 32 ≤ c := forall_bytes (by decide)
  have hquote : 39 ∈ bytes "O'Brien" := by decide
  exact ((insert_iff sampleDraws (bytes "O'Brien") sampleDecimal hitems).mp hl).1 hquote

end CdcPipeline.Proofs.SqlText
