import CdcPipeline.Library.JsonLexer

namespace CdcPipeline.Library.JsonParser

open Text JsonLexer

/-- A container that is not closed yet, with what has been read of it. -/
inductive Frame where
  | items (xs : List Json)
  | members (ms : List (Bytes × Json)) (key : Bytes)

/-- What the next token has to be. -/
inductive Expect where
  | value
  | firstItem
  | firstKey
  | key (ms : List (Bytes × Json))
  | colon (ms : List (Bytes × Json)) (k : Bytes)
  | after (v : Json)

/-- The value of a token that is one by itself. -/
def value : Token → Option Json
  | .text s => some (.str s)
  | .null => some .null
  | .bool b => some (.bool b)
  | .int n => some (.int n)
  | .float x => some (.float x)
  | _ => none

def beginValue (stack : List Frame) (t : Token) : Option (Expect × List Frame) :=
  match t with
  | .beginObject => some (.firstKey, stack)
  | .beginArray => some (.firstItem, stack)
  | t => (value t).map fun v => (.after v, stack)

def step : Expect × List Frame → Token → Option (Expect × List Frame)
  | (.value, stack), t => beginValue stack t
  | (.firstItem, stack), .endArray => some (.after (.arr []), stack)
  | (.firstItem, stack), t => beginValue (.items [] :: stack) t
  | (.firstKey, stack), .endObject => some (.after (.obj []), stack)
  | (.firstKey, stack), .text k => some (.colon [] k, stack)
  | (.key ms, stack), .text k => some (.colon ms k, stack)
  | (.colon ms k, stack), .colon => some (.value, .members ms k :: stack)
  | (.after v, .items xs :: stack), .comma => some (.value, .items (xs ++ [v]) :: stack)
  | (.after v, .items xs :: stack), .endArray => some (.after (.arr (xs ++ [v])), stack)
  | (.after v, .members ms k :: stack), .comma => some (.key (ms ++ [(k, v)]), stack)
  | (.after v, .members ms k :: stack), .endObject =>
    some (.after (.obj (ms ++ [(k, v)])), stack)
  | _, _ => none

def finish : Expect × List Frame → Option Json
  | (.after v, []) => some v
  | _ => none

def parse (ts : List Token) : Option Json := (ts.foldlM step (.value, [])).bind finish

/-- The document that a text spells; none if it is no JSON text. Members are kept in order,
a name that comes twice as well. -/
def read (s : Bytes) : Option Json := (lex s).bind parse

example : read (bytes "\x7b\"a\": [-1, \"\\u00e9\\n\", true]\x7d") =
    some (.obj [(bytes "a", .arr [.int (-1), .str [0xC3, 0xA9, 0x0A], .bool true])]) := rfl

/-- The string is a value somewhere in the document. -/
inductive Holds (s : Bytes) : Json → Prop where
  | str : Holds s (.str s)
  | item {xs x} (mem : x ∈ xs) (holds : Holds s x) : Holds s (.arr xs)
  | member {ms k v} (mem : (k, v) ∈ ms) (holds : Holds s v) : Holds s (.obj ms)

@[simp] theorem holds_str {s t : Bytes} : Holds s (.str t) ↔ t = s := by
  constructor
  · rintro ⟨⟩
    rfl
  · rintro rfl
    exact .str

@[simp] theorem holds_arr {s : Bytes} {xs : List Json} :
    Holds s (.arr xs) ↔ ∃ x ∈ xs, Holds s x := by
  constructor
  · rintro ⟨⟩
    exact ⟨_, ‹_›, ‹_›⟩
  · rintro ⟨x, mem, holds⟩
    exact .item mem holds

@[simp] theorem holds_obj {s : Bytes} {ms : List (Bytes × Json)} :
    Holds s (.obj ms) ↔ ∃ m ∈ ms, Holds s m.2 := by
  constructor
  · rintro ⟨⟩
    exact ⟨_, ‹_›, ‹_›⟩
  · rintro ⟨m, mem, holds⟩
    exact .member mem holds

theorem value_holds {s : Bytes} {t : Token} {v : Json} (h : value t = some v) (hs : Holds s v) :
    t = .text s := by
  cases t with
  | text u =>
    obtain rfl := Option.some.inj h
    rw [holds_str.mp hs]
  | null | bool | int | float =>
    obtain rfl := Option.some.inj h
    cases hs
  | _ => contradiction

def Frame.Holds (s : Bytes) : Frame → Prop
  | .items xs => ∃ x ∈ xs, JsonParser.Holds s x
  | .members ms _ => ∃ m ∈ ms, JsonParser.Holds s m.2

theorem Frame.holds_items {s : Bytes} {xs : List Json} :
    (Frame.items xs).Holds s ↔ ∃ x ∈ xs, JsonParser.Holds s x := Iff.rfl

theorem Frame.holds_members {s k : Bytes} {ms : List (Bytes × Json)} :
    (Frame.members ms k).Holds s ↔ ∃ m ∈ ms, JsonParser.Holds s m.2 := Iff.rfl

def Expect.Holds (s : Bytes) : Expect → Prop
  | .value | .firstItem | .firstKey => False
  | .key ms | .colon ms _ => ∃ m ∈ ms, JsonParser.Holds s m.2
  | .after v => JsonParser.Holds s v

def HeldBy (s : Bytes) (c : Expect × List Frame) : Prop := c.1.Holds s ∨ ∃ f ∈ c.2, f.Holds s

theorem beginValue_holds {s : Bytes} {stack : List Frame} {t : Token} {c : Expect × List Frame}
    (h : beginValue stack t = some c) (hs : HeldBy s c) :
    (∃ f ∈ stack, f.Holds s) ∨ t = .text s := by
  unfold beginValue at h
  split at h
  · obtain rfl := Option.some.inj h
    exact Or.inl (hs.resolve_left id)
  · obtain rfl := Option.some.inj h
    exact Or.inl (hs.resolve_left id)
  · obtain ⟨v, hv, rfl⟩ := Option.map_eq_some_iff.mp h
    rcases hs with hs | hs
    · exact Or.inr (value_holds hv hs)
    · exact Or.inl hs

/-- A token brings no string into the document but its own. -/
theorem step_holds {s : Bytes} {c c' : Expect × List Frame} {t : Token}
    (h : step c t = some c') (hs : HeldBy s c') : HeldBy s c ∨ t = .text s := by
  unfold step at h
  split at h
  · exact (beginValue_holds h hs).imp_left Or.inr
  on_goal 2 =>
    rcases beginValue_holds h hs with ⟨f, hf, hs⟩ | ht
    · rcases List.mem_cons.mp hf with rfl | hf
      · obtain ⟨x, hx, -⟩ := hs
        contradiction
      · exact Or.inl (Or.inr ⟨f, hf, hs⟩)
    · exact Or.inr ht
  on_goal 10 => contradiction
  -- What was read is moved between the frame, the value and what is expected next.
  all_goals
    obtain rfl := Option.some.inj h
    simp only [HeldBy, Expect.Holds, Frame.holds_items, Frame.holds_members, holds_arr, holds_obj,
      List.mem_cons, List.not_mem_nil, List.mem_append, false_and, exists_false, false_or, or_false,
      or_and_right, exists_or, exists_eq_left] at hs ⊢
    grind

theorem run_holds {s : Bytes} {ts : List Token} {c c' : Expect × List Frame}
    (h : ts.foldlM step c = some c') (hs : HeldBy s c') : HeldBy s c ∨ .text s ∈ ts := by
  induction ts generalizing c with
  | nil =>
    obtain rfl := Option.some.inj h
    exact Or.inl hs
  | cons t ts ih =>
    rw [List.foldlM_cons, Option.bind_eq_bind, Option.bind_eq_some_iff] at h
    obtain ⟨c₁, hstep, hrest⟩ := h
    rcases ih hrest with hs | hs
    · rcases step_holds hstep hs with hs | rfl
      · exact Or.inl hs
      · exact Or.inr List.mem_cons_self
    · exact Or.inr (List.mem_cons_of_mem t hs)

/-- A string of the document is one of the text's tokens. -/
theorem parse_holds {s : Bytes} {ts : List Token} {doc : Json} (h : parse ts = some doc)
    (hs : Holds s doc) : .text s ∈ ts := by
  rw [parse, Option.bind_eq_some_iff] at h
  obtain ⟨⟨e, stack⟩, hrun, hfin⟩ := h
  have he : HeldBy s (e, stack) := by
    unfold finish at hfin
    split at hfin
    · rename_i v heq
      obtain ⟨rfl, -⟩ := Prod.mk.inj heq
      obtain rfl := Option.some.inj hfin
      exact Or.inl hs
    · contradiction
  rcases run_holds hrun he with (h0 | ⟨f, hf, -⟩) | hmem
  · exact h0.elim
  · contradiction
  · exact hmem

end CdcPipeline.Library.JsonParser
