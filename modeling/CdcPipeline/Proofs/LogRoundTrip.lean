import CdcPipeline.Model.Logstash
import CdcPipeline.Proofs.LogSlots

namespace CdcPipeline.Proofs.LogRoundTrip

open Library Text Model Logstash JsonString JsonTemplate LogTemplates LogSlots

/-- What is sent is one line with one document, and flattening it gives the event name and the
field values of the call, beside what the pattern adds. -/
def RoundTrips (at_ : Moment) (c : Call) : Prop :=
  ∃ line doc e, c.sent at_ = some (line ++ [10]) ∧ 10 ∉ line ∧ JsonParser.read line = some doc ∧
    decode doc = some e ∧ flatten e = Event.empty.setAll (c.members at_)

theorem flatten_holds {doc : Json} {e : Event} (h : decode doc = some e) {k s : Bytes}
    (hk : flatten e k = some (.str s)) : JsonParser.Holds s doc := by
  cases doc with
  | obj root =>
    obtain rfl := Option.some.inj h
    have hroot : ∀ {k' : Bytes} {v : Json}, Event.empty.setAll root k' = some v →
        JsonParser.Holds s v → JsonParser.Holds s (.obj root) := by
      intro k' v hv hs
      rcases Event.setAll_some hv with hmem | hempty
      · exact .member hmem hs
      · contradiction
    rcases flatten_cases (Event.empty.setAll root) with ⟨ms, hm, hflat⟩ | hflat
    · rw [hflat, Event.remove] at hk
      by_cases hkm : k = bytes "message"
      · subst hkm
        rw [Function.update_self] at hk
        contradiction
      · rw [Function.update_of_ne hkm] at hk
        rcases Event.setAll_some hk with hmem | hbefore
        · exact hroot hm (.member hmem .str)
        · exact hroot hbefore .str
    · rw [hflat] at hk
      exact hroot hk .str
  | _ => contradiction

theorem parse_fields (fs : List Field) (ms ms' : List (Bytes × Json)) (k k' : Bytes) (v : Json) :
    (closingMarks fs ++ tokens (fieldSlots fs)).foldlM JsonParser.step
        (.after v, [.members ms k, .members ms' k']) =
      some (.after (.obj (ms' ++ [(k', .obj (ms ++ (k, v) :: fs.map Field.value))])), []) := by
  induction fs generalizing ms k v with
  | nil => rfl
  | cons f fs ih =>
    cases f with
    | text name pieces =>
      have hrest := ih (ms ++ [(k, v)]) name (.str (pieces.flatMap Piece.text))
      rw [List.append_assoc] at hrest
      exact hrest
    | number name n =>
      have hrest := ih (ms ++ [(k, v)]) name (.int n)
      rw [List.append_assoc] at hrest
      exact hrest

theorem parse_line (at_ : Moment) (service : Service) (l : LogLine) :
    JsonParser.parse (.beginObject :: tokens (lineSlots at_ service l)) =
      some (.obj (header at_ l.level service ++ [(bytes "message", .obj l.values)])) := by
  have hfields := parse_fields l.fields [] (header at_ l.level service) (bytes "event")
    (bytes "message") (.str l.event)
  have hrun : (.beginObject :: tokens (lineSlots at_ service l)).foldlM
        JsonParser.step (.value, []) =
      (closingMarks l.fields ++ tokens (fieldSlots l.fields)).foldlM JsonParser.step
        (.after (.str l.event), [.members [] (bytes "event"),
          .members (header at_ l.level service) (bytes "message")]) := rfl
  rw [JsonParser.parse, hrun, hfields]
  rfl

/-- The value that a call gives to a field, in the event it should become. -/
theorem expected_value {c : Call} {name : Bytes} {pieces : List Piece}
    (h : .text name pieces ∈ c.line.fields) (at_ : Moment) :
    Event.empty.setAll (c.members at_) name = some (.str (pieces.flatMap Piece.text)) :=
  Event.setAll_member (members_distinct _ _).1 (List.mem_append_right _
    (List.mem_cons_of_mem _ (List.mem_map.mpr ⟨_, h, rfl⟩))) _

theorem sent_args {c : Call} (ha : c.line.args ≠ []) (at_ : Moment) : c.sent at_ =
    some (bytes "\x7b" ++ render (lineSlots at_ c.service c.line) ++ [10]) := by
  rw [Call.sent, payload_args (sound_call c) ha, Option.map_some, pattern_lineText]

theorem run_brace : (bytes "\x7b").foldlM JsonLexer.step ([], .between) =
    some ([.beginObject], .between) := rfl

/-- The longest of the spoilt values is in no document that the line may be read as. -/
theorem strings_clean {c : Call} {at_ : Moment} (ha : c.line.args ≠ []) (h : RoundTrips at_ c) :
    ∀ s ∈ c.line.strings, clean s = true := by
  have hsound := sound_call c
  obtain ⟨line, doc, e, hsent, -, hread, hdecode, hflat⟩ := h
  rw [sent_args ha, Option.some.injEq] at hsent
  obtain rfl := List.append_cancel_right hsent
  rw [JsonParser.read, Option.bind_eq_some_iff] at hread
  obtain ⟨ts, hlex, hparse⟩ := hread
  rw [← clean_line hsound at_ c.service]
  by_contra hparts
  have hspoilt : ∃ p ∈ lineSlots at_ c.service c.line, clean p.content = false := by
    simpa using hparts
  obtain ⟨p, hp, hc, hlost⟩ := lex_part_lost (guarded_line hsound at_ c.service) run_brace
    (by simp) hlex hspoilt
  obtain ⟨name, pieces, hf, hcontent⟩ := spoilt_line hsound hp hc
  refine hlost (JsonParser.parse_holds hparse (flatten_holds hdecode (k := name) ?_))
  rw [hflat, expected_value hf, hcontent]

/-- Clean arguments are read as they were passed. -/
theorem round_trips_clean {c : Call} (ha : c.line.args ≠ []) (at_ : Moment)
    (hc : ∀ s ∈ c.line.strings, clean s = true) : RoundTrips at_ c := by
  have hparts := (clean_line (sound_call c) at_ c.service).mpr hc
  have hread : JsonParser.read (bytes "\x7b" ++ render (lineSlots at_ c.service c.line)) =
      some (.obj (header at_ c.line.level c.service ++
        [(bytes "message", .obj c.line.values)])) := by
    rw [JsonParser.read, lex_render hparts run_brace]
    exact parse_line at_ c.service c.line
  refine ⟨_, _, _, sent_args ha at_, ?_, hread, rfl, ?_⟩
  · intro h
    rcases List.mem_append.mp h with h | h
    · revert h
      decide
    · exact absurd (render_ordinary hparts h) (by decide)
  · have hnames := (members_distinct c at_).2
    rw [Call.members, List.map_append, List.mem_append, not_or] at hnames
    have hempty : Event.empty.setAll (header at_ c.line.level c.service) (bytes "message") = none :=
      Event.setAll_other hnames.1 _
    have hmessage := Event.set_self (Event.empty.setAll (header at_ c.line.level c.service))
      (bytes "message", .obj c.line.values)
    rw [Event.setAll_append, Event.setAll_cons, Event.setAll_nil, flatten_hash hmessage,
      Event.remove_set hnames.2 hempty, Call.members, Event.setAll_append]

/-- The line up to the second of two braces. -/
def bracesSlots (at_ : Moment) (level : Level) (service : Service) : List Slot :=
  headSlots at_ level service ++
    [⟨bytes "message", bytes ":\x7b\x7b", [.colon, .beginObject, .beginObject], by decide, rfl⟩]

theorem pattern_format (at_ : Moment) (service : Service) (l : LogLine) : ∃ rest,
    pattern at_ l.level service l.format =
      bytes "\x7b" ++ render (bracesSlots at_ l.level service) ++ rest ++ [10] := by
  refine ⟨bytes "\"event\": \"" ++ l.event ++ [0x22] ++
    l.fields.flatMap (fun f => bytes ", " ++ f.format) ++ bytes "\x7d\x7d\x7d", ?_⟩
  simp [pattern, LogLine.format, bracesSlots, headSlots, headNameSlot, headValueSlot, render, bytes]

/-- A call without arguments sends its doubled braces: a member is missing its name. -/
theorem verbatim_lost {c : Call} (ha : c.line.args = []) (at_ : Moment) : ¬ RoundTrips at_ c := by
  rintro ⟨line, doc, e, hsent, -, hread, -, -⟩
  obtain ⟨rest, hpattern⟩ := pattern_format at_ c.service c.line
  rw [Call.sent, LogLine.payload, if_pos ha, Option.map_some, hpattern, Option.some.injEq] at hsent
  obtain rfl := List.append_cancel_right hsent
  have hclean : ∀ p ∈ bracesSlots at_ c.line.level c.service, clean p.content = true := by
    intro p hp
    rcases List.mem_append.mp hp with hp | hp
    · exact clean_head at_ c.line.level c.service p hp
    · rw [List.mem_singleton] at hp
      exact hp ▸ rfl
  have hrun := (JsonLexer.run_append run_brace _).trans (run_render hclean [.beginObject])
  rw [JsonParser.read, Option.bind_eq_some_iff] at hread
  obtain ⟨ts, hlex, hparse⟩ := hread
  obtain ⟨more, rfl⟩ := JsonLexer.lex_out hrun hlex
  have hstuck : ([JsonLexer.Token.beginObject] ++
      tokens (bracesSlots at_ c.line.level c.service)).foldlM JsonParser.step (.value, []) =
        none := rfl
  rw [JsonParser.parse, List.foldlM_append, hstuck] at hparse
  contradiction

/-- A line comes back as it was meant if its call passes something to format, and no string
that it passes needs escaping. -/
theorem round_trips_iff (at_ : Moment) (c : Call) :
    RoundTrips at_ c ↔ c.line.args ≠ [] ∧ ∀ s ∈ c.line.strings, clean s = true := by
  constructor
  · intro h
    have ha : c.line.args ≠ [] := fun he => verbatim_lost he at_ h
    exact ⟨ha, strings_clean ha h⟩
  · rintro ⟨ha, hc⟩
    exact round_trips_clean ha at_ hc

def sampleMoment : Moment := ⟨bytes "2026-01-02T03:04:05.000006+00:00", by decide⟩

/-- The parser's complaint about a body that is a lone quote. -/
def quoteError : Bytes :=
  bytes ("[json.exception.parse_error.101] parse error at line 1, column 2: syntax error while " ++
    "parsing value - invalid string: missing closing quote; last read: '\"'")

/-- The line for such a request is lost, and so is one that the consumers log at every start. -/
theorem lines_lost : ¬ RoundTrips sampleMoment (.api (.apiBadRequest quoteError)) ∧
    ¬ RoundTrips sampleMoment (.consumer .launchingConsumerThreads) := by
  constructor
  · intro h
    have hargs : (Call.api (.apiBadRequest quoteError)).line.args ≠ [] := List.cons_ne_nil _ _
    exact absurd (strings_clean hargs h quoteError List.mem_cons_self) (by decide +kernel)
  · exact verbatim_lost rfl sampleMoment

end CdcPipeline.Proofs.LogRoundTrip
