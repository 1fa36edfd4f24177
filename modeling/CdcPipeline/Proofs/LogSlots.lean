import CdcPipeline.Library.JsonParser
import CdcPipeline.Proofs.LogTemplates

namespace CdcPipeline.Proofs.LogSlots

open Library Text Model JsonString JsonLexer JsonTemplate LogTemplates

/-- What stands between a value and the next member, or behind the last one. -/
def closing (fs : List Field) : Bytes := if fs.isEmpty then bytes "\x7d\x7d" else bytes ", "

def closingMarks (fs : List Field) : List Token :=
  if fs.isEmpty then [.endObject, .endObject] else [.comma]

theorem closing_cons (fs : List Field) : ∃ b s, closing fs = b :: s ∧ isBare b = false := by
  cases fs with
  | nil => exact ⟨_, _, rfl, rfl⟩
  | cons f fs => exact ⟨_, _, rfl, rfl⟩

theorem run_closing (fs : List Field) :
    (closing fs).foldlM step ([], .between) = some (closingMarks fs, .between) := by
  cases fs <;> rfl

theorem ordinary_closing (fs : List Field) : (closing fs).all ordinary = true := by
  cases fs <;> rfl

/-- `"name": ` -/
def nameSlot (name : Bytes) : Slot := ⟨name, bytes ": ", [.colon], by decide, rfl⟩

/-- `"name":`, as the pattern has it. -/
def headNameSlot (name : Bytes) : Slot := ⟨name, bytes ":", [.colon], by decide, rfl⟩

def headValueSlot (s : Bytes) : Slot := ⟨s, bytes ", ", [.comma], by decide, rfl⟩

def valueSlot (s : Bytes) (fs : List Field) : Slot :=
  ⟨s, closing fs, closingMarks fs, ordinary_closing fs, run_closing fs⟩

theorem run_number (n : Int) (fs : List Field) :
    (bytes ": " ++ intText n ++ closing fs).foldlM step ([], .between) =
      some (.colon :: .int n :: closingMarks fs, .between) := by
  obtain ⟨b, s, hclosing, hb⟩ := closing_cons fs
  have hrest := run_closing fs
  have hstart := start_out [.colon, .int n] [] b
  have hout := run_out [.colon, .int n] (start [] b) s
  have hopen : (bytes ": ").foldlM step ([], .between) = some ([.colon], .between) := rfl
  rw [hclosing] at hrest ⊢
  rw [List.append_nil] at hstart
  rw [List.foldlM_cons, step, Option.bind_eq_bind, Option.bind_some] at hrest
  rw [List.append_assoc, run_append hopen, List.append_cons, run_append (run_int n hb _)]
  rw [List.singleton_append, hstart, hout, hrest]
  rfl

theorem ordinary_number (n : Int) (fs : List Field) :
    (bytes ": " ++ intText n ++ closing fs).all ordinary = true := by
  rw [List.all_append, List.all_append, plain_ordinary (plain_intText n), ordinary_closing]
  rfl

def numberSlot (name : Bytes) (n : Int) (fs : List Field) : Slot :=
  ⟨name, bytes ": " ++ intText n ++ closing fs, .colon :: .int n :: closingMarks fs,
    ordinary_number n fs, run_number n fs⟩

def fieldSlots : List Field → List Slot
  | [] => []
  | .text name pieces :: fs =>
    nameSlot name :: valueSlot (pieces.flatMap Piece.text) fs :: fieldSlots fs
  | .number name n :: fs => numberSlot name n fs :: fieldSlots fs

def headSlots (at_ : Moment) (level : Level) (service : Service) : List Slot :=
  [headNameSlot (bytes "@timestamp"), headValueSlot at_.text,
    headNameSlot (bytes "level"), headValueSlot level.name,
    headNameSlot (bytes "service"), headValueSlot service.name]

/-- `"message":{` -/
def messageSlot : Slot :=
  ⟨bytes "message", bytes ":\x7b", [.colon, .beginObject], by decide, rfl⟩

def lineSlots (at_ : Moment) (service : Service) (l : LogLine) : List Slot :=
  headSlots at_ l.level service ++ messageSlot :: nameSlot (bytes "event") ::
    valueSlot l.event l.fields :: fieldSlots l.fields

theorem render_fields (fs : List Field) :
    fs.flatMap (fun f => bytes ", " ++ fieldText f) ++ bytes "\x7d\x7d" =
      closing fs ++ render (fieldSlots fs) := by
  induction fs with
  | nil => rfl
  | cons f fs ih =>
    have hclosing : closing (f :: fs) = bytes ", " := rfl
    rw [List.flatMap_cons, List.append_assoc, ih, hclosing]
    cases f with
    | text name pieces =>
      simp [fieldText, fieldSlots, render, nameSlot, valueSlot, bytes]
    | number name n =>
      simp [fieldText, fieldSlots, render, numberSlot, bytes]

theorem pattern_lineText (at_ : Moment) (service : Service) (l : LogLine) :
    pattern at_ l.level service (lineText l) =
      bytes "\x7b" ++ render (lineSlots at_ service l) ++ [10] := by
  have hfields := render_fields l.fields
  have hend : bytes "\x7d" ++ bytes "\x7d\n" = bytes "\x7d\x7d" ++ [10] := rfl
  simp only [pattern, lineText, List.append_assoc, hend]
  rw [← List.append_assoc (l.fields.flatMap _), hfields]
  simp [lineSlots, headSlots, headNameSlot, headValueSlot, messageSlot, nameSlot, valueSlot, render,
    bytes]

theorem name_spec {s : Bytes} (h : isFieldName s = true) : clean s = true ∧ IsName s := by
  simp only [isFieldName, Bool.and_eq_true, Bool.not_eq_true', List.isEmpty_eq_false_iff,
    Option.isNone_iff_eq_none] at h
  obtain ⟨⟨hne, hall⟩, hword⟩ := h
  exact ⟨clean_plain (plain_literal (name_literal hall)), hne,
    all_imp hall fun _ hb => (isNameByte_spec hb).2, hword⟩

theorem clean_moment (at_ : Moment) : clean at_.text = true := by
  have hmarks : ∀ c ∈ bytes "-T:.+", plain c = true := forall_bytes (by decide)
  refine clean_plain (all_imp at_.chars fun b h => ?_)
  rw [isMomentByte, Bool.or_eq_true, List.contains_iff_mem] at h
  exact h.elim (fun hd => (isDigit_spec hd).1) (hmarks b)

theorem guarded_fields {fs : List Field} (h : fs.all fieldSound = true) :
    Guarded (fieldSlots fs) ∧ Breaks (fieldSlots fs) := by
  induction fs with
  | nil => exact ⟨trivial, nofun⟩
  | cons f fs ih =>
    rw [List.all_cons, Bool.and_eq_true] at h
    obtain ⟨hguarded, hbreaks⟩ := ih h.2
    obtain ⟨hclean, hname⟩ := name_spec (fieldName_sound h.1)
    cases f with
    | text name pieces =>
      refine ⟨⟨Or.inl hclean, Or.inr hbreaks, hguarded⟩, ?_⟩
      rintro q ⟨⟩
      exact hname
    | number name n =>
      refine ⟨⟨Or.inl hclean, hguarded⟩, ?_⟩
      rintro q ⟨⟩
      exact hname

theorem clean_head (at_ : Moment) (level : Level) (service : Service) :
    ∀ p ∈ headSlots at_ level service, clean p.content = true := by
  have hlevel : clean level.name = true := by
    cases level <;> rfl
  have hservice : clean service.name = true := by
    cases service <;> rfl
  simp only [headSlots, List.forall_mem_cons]
  exact ⟨rfl, clean_moment at_, rfl, hlevel, rfl, hservice, nofun⟩

theorem guarded_append {ps qs : List Slot} (hp : ∀ p ∈ ps, clean p.content = true)
    (hq : Guarded qs) : Guarded (ps ++ qs) := by
  induction ps with
  | nil => exact hq
  | cons p ps ih =>
    rw [List.forall_mem_cons] at hp
    exact ⟨Or.inl hp.1, ih hp.2⟩

/-- Only values can be spoilt, and behind a value a name follows or the line ends. -/
theorem guarded_line {l : LogLine} (h : sound l = true) (at_ : Moment) (service : Service) :
    Guarded (lineSlots at_ service l) := by
  simp only [sound, Bool.and_eq_true] at h
  refine guarded_append (clean_head at_ l.level service) ?_
  have hevent := clean_plain (plain_literal (name_literal h.1.1))
  exact ⟨Or.inl rfl, Or.inl rfl, Or.inl hevent, (guarded_fields h.1.2).1⟩

theorem spoilt_field {fs : List Field} (h : fs.all fieldSound = true) {p : Slot}
    (hp : p ∈ fieldSlots fs) (hc : clean p.content = false) :
    ∃ name pieces, .text name pieces ∈ fs ∧ p.content = pieces.flatMap Piece.text := by
  induction fs with
  | nil => contradiction
  | cons f fs ih =>
    rw [List.all_cons, Bool.and_eq_true] at h
    have hname := (name_spec (fieldName_sound h.1)).1
    cases f with
    | text name pieces =>
      rcases List.mem_cons.mp hp with rfl | hp
      · exact absurd hname (by simp [show clean name = false from hc, Field.name])
      · rcases List.mem_cons.mp hp with rfl | hp
        · exact ⟨name, pieces, List.mem_cons_self, rfl⟩
        · obtain ⟨k, ps, hmem, he⟩ := ih h.2 hp
          exact ⟨k, ps, List.mem_cons_of_mem _ hmem, he⟩
    | number name n =>
      rcases List.mem_cons.mp hp with rfl | hp
      · exact absurd hname (by simp [show clean name = false from hc, Field.name])
      · obtain ⟨k, ps, hmem, he⟩ := ih h.2 hp
        exact ⟨k, ps, List.mem_cons_of_mem _ hmem, he⟩

theorem spoilt_line {l : LogLine} (h : sound l = true) {at_ : Moment} {service : Service}
    {p : Slot} (hp : p ∈ lineSlots at_ service l) (hc : clean p.content = false) :
    ∃ name pieces, .text name pieces ∈ l.fields ∧ p.content = pieces.flatMap Piece.text := by
  simp only [sound, Bool.and_eq_true] at h
  have spare : ∀ {q : Slot}, clean q.content = true → p ≠ q := by
    rintro q hq rfl
    rw [hc] at hq
    contradiction
  rw [lineSlots, List.mem_append, List.mem_cons, List.mem_cons, List.mem_cons] at hp
  rcases hp with hp | hp | hp | hp | hp
  · exact absurd rfl (spare (clean_head at_ l.level service p hp))
  · exact absurd hp (spare rfl)
  · exact absurd hp (spare rfl)
  · exact absurd hp (spare (clean_plain (plain_literal (name_literal h.1.1))))
  · exact spoilt_field h.1.2 hp hc

theorem field_slot {fs : List Field} {name : Bytes} {pieces : List Piece}
    (h : .text name pieces ∈ fs) :
    ∃ p ∈ fieldSlots fs, p.content = pieces.flatMap Piece.text := by
  induction fs with
  | nil => contradiction
  | cons f fs ih =>
    rcases List.mem_cons.mp h with rfl | h
    · exact ⟨valueSlot (pieces.flatMap Piece.text) fs,
        List.mem_cons_of_mem _ List.mem_cons_self, rfl⟩
    · obtain ⟨p, hp, he⟩ := ih h
      cases f with
      | text => exact ⟨p, List.mem_cons_of_mem _ (List.mem_cons_of_mem _ hp), he⟩
      | number => exact ⟨p, List.mem_cons_of_mem _ hp, he⟩

theorem startsPlain_spec {ps : List Piece} (h : startsPlain ps = true) :
    ps.flatMap Piece.text = [] ∨ ∃ b s, ps.flatMap Piece.text = b :: s ∧ plain b = true := by
  match ps with
  | [] => exact Or.inl rfl
  | .num n :: ps =>
    obtain ⟨b, s, hn⟩ := List.exists_cons_of_ne_nil (Json.intText_ne_nil n)
    have hplain := plain_intText n
    rw [hn, List.all_cons, Bool.and_eq_true] at hplain
    exact Or.inr ⟨b, s ++ ps.flatMap Piece.text, by simp [Piece.text, hn], hplain.1⟩
  | .lit (b :: s) :: ps => exact Or.inr ⟨b, s ++ ps.flatMap Piece.text, by simp [Piece.text], h⟩
  | .lit [] :: ps | .arg s :: ps => contradiction

/-- A value is clean if the string arguments in it are. -/
theorem clean_pieces {ps : List Piece} (h : separated ps = true) :
    clean (ps.flatMap Piece.text) = (ps.flatMap Piece.strings).all clean := by
  induction ps with
  | nil => rfl
  | cons p ps ih =>
    cases p with
    | lit s =>
      rw [separated, Bool.and_eq_true] at h
      rw [List.flatMap_cons, List.flatMap_cons, Piece.text, clean_plain_append (plain_literal h.1),
        ih h.2]
      rfl
    | num n =>
      rw [List.flatMap_cons, List.flatMap_cons, Piece.text, clean_plain_append (plain_intText n),
        ih h]
      rfl
    | arg s =>
      rw [separated, Bool.and_eq_true] at h
      rw [List.flatMap_cons, List.flatMap_cons, Piece.text, Piece.strings, List.singleton_append,
        List.all_cons, ← ih h.2]
      rcases startsPlain_spec h.1 with hnil | ⟨b, t, hcons, hb⟩
      · rw [hnil, List.append_nil]
        exact (Bool.and_true _).symm
      · rw [hcons, clean_append hb]

theorem separated_of_mem {l : LogLine} (h : sound l = true) {name : Bytes} {pieces : List Piece}
    (hf : .text name pieces ∈ l.fields) : separated pieces = true := by
  simp only [sound, Bool.and_eq_true] at h
  have hfield := List.all_eq_true.mp h.1.2 _ hf
  rw [fieldSound, Bool.and_eq_true] at hfield
  exact hfield.2

/-- All the parts of a line are clean if the string arguments of its call are. -/
theorem clean_line {l : LogLine} (h : sound l = true) (at_ : Moment) (service : Service) :
    (∀ p ∈ lineSlots at_ service l, clean p.content = true) ↔
      ∀ s ∈ l.strings, clean s = true := by
  constructor
  · intro hparts s hs
    obtain ⟨f, hf, hs⟩ := List.mem_flatMap.mp hs
    cases f with
    | number name n => contradiction
    | text name pieces =>
      obtain ⟨p, hp, he⟩ := field_slot hf
      have hp := hparts p (List.mem_append_right _ (List.mem_cons_of_mem _
        (List.mem_cons_of_mem _ (List.mem_cons_of_mem _ hp))))
      rw [he, clean_pieces (separated_of_mem h hf)] at hp
      exact List.all_eq_true.mp hp s hs
  · intro hstrings p hp
    by_contra hc
    obtain ⟨name, pieces, hf, he⟩ := spoilt_line h hp (Bool.eq_false_iff.mpr hc)
    rw [he, clean_pieces (separated_of_mem h hf)] at hc
    exact hc (List.all_eq_true.mpr fun s hs => hstrings s (List.mem_flatMap.mpr ⟨_, hf, hs⟩))

end CdcPipeline.Proofs.LogSlots
