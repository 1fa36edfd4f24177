import CdcPipeline.Library.JsonTemplate
import CdcPipeline.Model.LogCalls

namespace CdcPipeline.Proofs.LogTemplates

open Library Text Model JsonString JsonLexer JsonTemplate

def isNameByte (b : UInt8) : Bool := (97 ≤ b && b ≤ 122) || b = 95

def isFieldName (s : Bytes) : Bool := !s.isEmpty && s.all isNameByte && (readWord s).isNone

/-- A literal part prints as it stands. -/
def isLitByte (b : UInt8) : Bool := plain b && b != 0x7B && b != 0x7D

def startsPlain : List Piece → Bool
  | [] | .num _ :: _ => true
  | .lit (b :: _) :: _ => plain b
  | .lit [] :: _ | .arg _ :: _ => false

/-- Two string arguments never touch. -/
def separated : List Piece → Bool
  | [] => true
  | .lit s :: ps => s.all isLitByte && separated ps
  | .arg _ :: ps => startsPlain ps && separated ps
  | .num _ :: ps => separated ps

def fieldSound : Field → Bool
  | .text name pieces => isFieldName name && separated pieces
  | .number name _ => isFieldName name

/-- The names that the pattern itself writes. -/
def reserved : List Bytes := ["@timestamp", "level", "service", "message"].map bytes

def sound (l : LogLine) : Bool :=
  l.event.all isNameByte && l.fields.all fieldSound &&
    decide (reserved ++ bytes "event" :: l.fields.map Field.name).Nodup

theorem sound_call (c : Call) : sound c.line = true := by
  cases c with
  | api c => cases c <;> rfl
  | consumer c => cases c <;> rfl

/-- No two members of an event have one name, and none has the message's. -/
theorem members_distinct (c : Call) (at_ : Moment) :
    ((c.members at_).map Prod.fst).Nodup ∧ bytes "message" ∉ (c.members at_).map Prod.fst := by
  have h := sound_call c
  simp only [sound, Bool.and_eq_true, decide_eq_true_eq] at h
  have hmembers : (c.members at_).map Prod.fst =
      ["@timestamp", "level", "service"].map bytes ++ c.line.values.map Prod.fst := by
    rw [Call.members, List.map_append]
    rfl
  have hreserved : reserved =
      ["@timestamp", "level", "service"].map bytes ++ [bytes "message"] := rfl
  rw [hmembers, LogLine.values_names]
  rw [hreserved, List.append_assoc, List.singleton_append] at h
  have hmiddle := List.perm_middle.nodup_iff.mp h.2
  rw [List.nodup_cons] at hmiddle
  exact ⟨hmiddle.2, hmiddle.1⟩

theorem fmt_cons {b : UInt8} (h : b ≠ 0x7B ∧ b ≠ 0x7D) (fmt : Bytes) (args : List Bytes) :
    fmtFormat (b :: fmt) args = (fmtFormat fmt args).map (b :: ·) := by
  rw [fmtFormat, if_neg (not_or.mpr h)]
  · exact fun _ he => absurd he h.1
  · exact fun _ he => absurd he h.2
  · exact fun _ _ _ _ he => absurd he h.1

/-- Text without replacement fields and without escaped braces. -/
def unbraced (s : Bytes) : Bool := s.all (fun b => b != 0x7B && b != 0x7D)

theorem fmt_literal {s : Bytes} (h : unbraced s = true) (fmt : Bytes)
    (args : List Bytes) : fmtFormat (s ++ fmt) args = (fmtFormat fmt args).map (s ++ ·) := by
  induction s with
  | nil => simp
  | cons b s ih =>
    simp only [unbraced, List.all_cons, Bool.and_eq_true, bne_iff_ne] at h
    rw [List.cons_append, fmt_cons h.1, ih (by simpa [unbraced] using h.2), Option.map_map]
    rfl

theorem fmt_argument (fmt a : Bytes) (args : List Bytes) :
    fmtFormat (bytes "\x7b\x7d" ++ fmt) (a :: args) = (fmtFormat fmt args).map (a ++ ·) := rfl

theorem litBytes_unbraced {s : Bytes} (h : s.all isLitByte = true) : unbraced s = true :=
  all_imp h fun b hb => by
    simp only [isLitByte, Bool.and_eq_true] at hb ⊢
    exact ⟨hb.1.2, hb.2⟩

theorem plain_literal {s : Bytes} (h : s.all isLitByte = true) : s.all plain = true :=
  all_imp h fun b hb => by
    simp only [isLitByte, Bool.and_eq_true] at hb
    exact hb.1.1

theorem isNameByte_spec {b : UInt8} (h : isNameByte b = true) :
    isLitByte b = true ∧ isBare b = true := by
  have hletter : ∀ d < 26, isLitByte (97 + d).toUInt8 = true ∧ isBare (97 + d).toUInt8 = true := by
    decide
  simp only [isNameByte, Bool.or_eq_true, Bool.and_eq_true, decide_eq_true_eq,
    UInt8.le_iff_toNat_le, UInt8.reduceToNat] at h
  rcases h with h | rfl
  · have hb : (97 + (b.toNat - 97)).toUInt8 = b := by
      rw [Nat.add_sub_cancel' h.1]
      exact UInt8.ofNat_toNat
    exact hb ▸ hletter (b.toNat - 97) (by omega)
  · decide

theorem name_literal {s : Bytes} (h : s.all isNameByte = true) : s.all isLitByte = true :=
  all_imp h fun _ hb => (isNameByte_spec hb).1

theorem fmt_pieces {ps : List Piece} (h : separated ps = true) (fmt : Bytes) (args : List Bytes) :
    fmtFormat (ps.flatMap Piece.format ++ fmt) (ps.flatMap Piece.args ++ args) =
      (fmtFormat fmt args).map (ps.flatMap Piece.text ++ ·) := by
  induction ps with
  | nil => simp
  | cons p ps ih =>
    simp only [List.flatMap_cons, List.append_assoc]
    cases p with
    | lit s =>
      rw [separated, Bool.and_eq_true] at h
      rw [Piece.format, Piece.args, List.nil_append, fmt_literal (litBytes_unbraced h.1), ih h.2,
        Option.map_map]
      rfl
    | arg s =>
      rw [separated, Bool.and_eq_true] at h
      rw [Piece.format, Piece.args, List.singleton_append, fmt_argument, ih h.2, Option.map_map]
      rfl
    | num n =>
      rw [separated] at h
      rw [Piece.format, Piece.args, List.singleton_append, fmt_argument, ih h, Option.map_map]
      rfl

/-- A member with its arguments in it. -/
def fieldText : Field → Bytes
  | .text name pieces =>
    [0x22] ++ name ++ bytes "\": \"" ++ pieces.flatMap Piece.text ++ [0x22]
  | .number name n => [0x22] ++ name ++ bytes "\": " ++ intText n

theorem fieldName_sound {f : Field} (h : fieldSound f = true) : isFieldName f.name = true := by
  cases f with
  | text name pieces =>
    rw [fieldSound, Bool.and_eq_true] at h
    exact h.1
  | number name n => exact h

theorem fmt_field {f : Field} (h : fieldSound f = true) (fmt : Bytes) (args : List Bytes) :
    fmtFormat (f.format ++ fmt) (f.args ++ args) = (fmtFormat fmt args).map (fieldText f ++ ·) := by
  have hname := fieldName_sound h
  simp only [isFieldName, Bool.and_eq_true] at hname
  have hunbraced := litBytes_unbraced (name_literal hname.1.2)
  cases f with
  | text name pieces =>
    rw [fieldSound, Bool.and_eq_true] at h
    simp only [Field.format, Field.args, List.append_assoc]
    rw [fmt_literal (by decide), fmt_literal (s := name) hunbraced, fmt_literal (by decide),
      fmt_pieces h.2, fmt_literal (by decide)]
    simp [Option.map_map, Function.comp_def, fieldText]
  | number name n =>
    have hcolon : bytes "\": \x7b\x7d" = bytes "\": " ++ bytes "\x7b\x7d" := rfl
    simp only [Field.format, Field.args, hcolon, List.append_assoc]
    rw [fmt_literal (by decide), fmt_literal (s := name) hunbraced, fmt_literal (by decide),
      List.singleton_append, fmt_argument]
    simp [Option.map_map, Function.comp_def, fieldText]

theorem fmt_fields {fs : List Field} (h : fs.all fieldSound = true) (fmt : Bytes)
    (args : List Bytes) :
    fmtFormat (fs.flatMap (fun f => bytes ", " ++ f.format) ++ fmt)
        (fs.flatMap Field.args ++ args) =
      (fmtFormat fmt args).map (fs.flatMap (fun f => bytes ", " ++ fieldText f) ++ ·) := by
  induction fs with
  | nil => simp
  | cons f fs ih =>
    rw [List.all_cons, Bool.and_eq_true] at h
    simp only [List.flatMap_cons, List.append_assoc]
    rw [fmt_literal (by decide), fmt_field h.1, ih h.2]
    simp [Option.map_map, Function.comp_def]

/-- A message with its arguments in it. -/
def lineText (l : LogLine) : Bytes :=
  bytes "\x7b\"event\": \"" ++ l.event ++ [0x22] ++
    l.fields.flatMap (fun f => bytes ", " ++ fieldText f) ++ bytes "\x7d"

/-- A call with arguments logs its object, with single braces around it. -/
theorem payload_args {l : LogLine} (h : sound l = true) (ha : l.args ≠ []) :
    l.payload = some (lineText l) := by
  simp only [sound, Bool.and_eq_true] at h
  have hopen : ∀ fmt args, fmtFormat (bytes "\x7b\x7b\"event\": \"" ++ fmt) args =
      (fmtFormat fmt args).map (bytes "\x7b\"event\": \"" ++ ·) := by
    intro fmt args
    have hrest := fmt_literal (s := bytes "\"event\": \"") (by decide) fmt args
    have hbrace : fmtFormat (bytes "\x7b\x7b\"event\": \"" ++ fmt) args =
        (fmtFormat (bytes "\"event\": \"" ++ fmt) args).map (0x7B :: ·) := rfl
    rw [hbrace, hrest, Option.map_map]
    rfl
  have hclose : fmtFormat (bytes "\x7d\x7d") [] = some (bytes "\x7d") := rfl
  have hfields := fmt_fields h.1.2 (bytes "\x7d\x7d") []
  rw [List.append_nil] at hfields
  rw [LogLine.payload, if_neg ha, LogLine.format, LogLine.args]
  simp only [List.append_assoc]
  rw [hopen, fmt_literal (litBytes_unbraced (name_literal h.1.1)), fmt_literal (by decide),
    hfields, hclose]
  simp [lineText]

end CdcPipeline.Proofs.LogTemplates
