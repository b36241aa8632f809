import Criteria.Proofs.Coercion.Handles
import Criteria.Proofs.Coercion.Typing

set_option autoImplicit false

namespace Criteria

namespace DateFormats

open Calendar (FormatReader)

inductive Step where
  | add (format : String)
  | remove (format : String)
  | clear

def perform (d : DateFormats) : Step → DateFormats
  | .add format => d.add format
  | .remove format => (d.remove format).2
  | .clear => d.clear

def Step.removes : Step → String → Bool
  | add _, _ => false
  | remove format, other => format == other
  | clear, _ => true

def stays (steps : List Step) (format : String) : Bool :=
  steps.all (!·.removes format)

variable {d : DateFormats} {reader : FormatReader} {steps : List Step} {format : String}
  {s : List Char} {t : Calendar.DateTime}

theorem formats_add (d : DateFormats) (format : String) :
    (d.add format).formats = if format ∈ d.formats then d.formats else d.formats ++ [format] := by
  simp only [add, List.contains_iff_mem]
  split <;> rfl

theorem reader_foldl_perform (d : DateFormats) (steps : List Step) :
    (steps.foldl perform d).reader = d.reader := by
  induction steps generalizing d with
  | nil => rfl
  | cons step steps ih =>
    have same : (d.perform step).reader = d.reader := by
      cases step with
      | add format => simp only [perform, add]; split <;> rfl
      | remove format => rfl
      | clear => rfl
    exact (ih (d.perform step)).trans same

theorem stays_cons (step : Step) (steps : List Step) (format : String) :
    stays (step :: steps) format = (!step.removes format && stays steps format) :=
  List.all_cons ..

/-- After the steps the formats that stay are listed in their old order, and behind them some that
the steps added, each once. -/
structure Leaves (start : List String) (steps : List Step) (final added : List String) : Prop where
  final_eq : final = start.filter (stays steps) ++ added
  nodup : added.Nodup
  apart : ∀ format ∈ added, format ∉ start.filter (stays steps)
  told : ∀ format ∈ added, .add format ∈ steps

theorem Leaves.cons {final added : List String} (step : Step)
    (leaves : Leaves (d.perform step).formats steps final added) :
    ∃ added, Leaves d.formats (step :: steps) final added := by
  cases step with
  | add format =>
    have same : stays (.add format :: steps) = stays steps := funext fun other => stays_cons ..
    by_cases listed : format ∈ d.formats
    · have unchanged : d.perform (.add format) = d := by simp [perform, add, listed]
      rw [unchanged] at leaves
      exact ⟨added, by rw [same]; exact leaves.final_eq, leaves.nodup,
        by rw [same]; exact leaves.apart,
        fun other new => List.mem_cons_of_mem _ (leaves.told other new)⟩
    · have grown : (d.perform (.add format)).formats.filter (stays steps) =
          d.formats.filter (stays steps) ++ [format].filter (stays steps) := by
        rw [perform, formats_add, if_neg listed, List.filter_append]
      have apart (other : String) (new : other ∈ added) :
          other ∉ d.formats.filter (stays steps) ∧ other ∉ [format].filter (stays steps) := by
        have apart := leaves.apart other new
        rwa [grown, List.mem_append, not_or] at apart
      have single : [format].Nodup := by simp
      refine ⟨[format].filter (stays steps) ++ added, ?_, ?_, ?_, ?_⟩
      · rw [leaves.final_eq, grown, same, List.append_assoc]
      · refine List.nodup_append.2 ⟨single.filter _, leaves.nodup, ?_⟩
        rintro other late _ new rfl
        exact (apart other new).2 late
      · intro other new
        rw [same]
        rcases List.mem_append.1 new with late | new
        · rw [List.mem_singleton.1 (List.mem_filter.1 late).1]
          exact fun kept => listed (List.mem_filter.1 kept).1
        · exact (apart other new).1
      · intro other new
        rcases List.mem_append.1 new with late | new
        · rw [List.mem_singleton.1 (List.mem_filter.1 late).1]
          exact List.mem_cons_self
        · exact List.mem_cons_of_mem _ (leaves.told other new)
  | remove format =>
    have kept : (d.perform (.remove format)).formats.filter (stays steps) =
        d.formats.filter (stays (.remove format :: steps)) := by
      simp only [perform, remove, List.filter_filter]
      refine List.filter_congr fun other _ => ?_
      rw [stays_cons, Step.removes, Bool.and_comm, bne_comm]
      rfl
    exact ⟨added, by rw [leaves.final_eq, kept], leaves.nodup, kept ▸ leaves.apart,
      fun other new => List.mem_cons_of_mem _ (leaves.told other new)⟩
  | clear =>
    have kept : d.formats.filter (stays (.clear :: steps)) = [] :=
      List.filter_eq_nil_iff.2 fun other _ => by simp [stays_cons, Step.removes]
    have final_eq := leaves.final_eq
    simp only [perform, clear, List.filter_nil, List.nil_append] at final_eq
    exact ⟨added, by rw [final_eq, kept]; rfl, leaves.nodup, by simp [kept],
      fun other new => List.mem_cons_of_mem _ (leaves.told other new)⟩

theorem exists_leaves (d : DateFormats) (steps : List Step) :
    ∃ added, Leaves d.formats steps (steps.foldl perform d).formats added := by
  induction steps generalizing d with
  | nil =>
    have all : d.formats.filter (stays []) = d.formats := List.filter_eq_self.2 fun _ _ => rfl
    exact ⟨[], by rw [all, List.append_nil]; rfl, List.nodup_nil, nofun, nofun⟩
  | cons step steps ih =>
    obtain ⟨added, leaves⟩ := ih (d.perform step)
    exact leaves.cons step

theorem Leaves.nodup_final {start final added : List String}
    (leaves : Leaves start steps final added) (nodup : start.Nodup) : final.Nodup := by
  rw [leaves.final_eq]
  refine List.nodup_append.2 ⟨nodup.filter _, leaves.nodup, ?_⟩
  rintro format kept _ new rfl
  exact leaves.apart format new kept

def EarliestReads (reader : FormatReader) (formats : List String) (format : String) (s : List Char)
    (t : Calendar.DateTime) : Prop :=
  ∃ before after, formats = before ++ format :: after ∧
    (∀ earlier ∈ before, reader.read? earlier s = none) ∧ reader.read? format s = some t

theorem EarliestReads.read?_eq {formats : List String}
    (reads : EarliestReads reader formats format s t) : reader.read? format s = some t := by
  obtain ⟨before, after, -, -, read⟩ := reads
  exact read

theorem readByAny?_eq_some_iff {formats : List String} :
    reader.readByAny? formats s = some t ↔ ∃ format, EarliestReads reader formats format s t := by
  rw [FormatReader.readByAny?, List.findSome?_eq_some_iff]
  constructor
  · rintro ⟨before, format, after, parts, read, unread⟩
    exact ⟨format, before, after, parts, unread, read⟩
  · rintro ⟨format, before, after, parts, unread, read⟩
    exact ⟨before, format, after, parts, read, unread⟩

theorem EarliestReads.of_leaves {final added : List String} {start : List String}
    (leaves : Leaves start steps final added) (reads : EarliestReads reader start format s t)
    (kept : stays steps format = true) : EarliestReads reader final format s t := by
  obtain ⟨before, after, rfl, unread, read⟩ := reads
  refine ⟨before.filter (stays steps), after.filter (stays steps) ++ added, ?_, ?_, read⟩
  · rw [leaves.final_eq, List.filter_append, List.filter_cons_of_pos kept, List.append_assoc]
    rfl
  · exact fun earlier listed => unread earlier (List.mem_filter.1 listed).1

theorem not_blank_of_readByAny? {formats : List String}
    (read : reader.readByAny? formats s = some t) : Text.allBlank s = false := by
  obtain ⟨format, reads⟩ := readByAny?_eq_some_iff.1 read
  exact FormatReader.not_blank_of_read? reads.read?_eq

theorem parser_text (d : DateFormats) (text : String) :
    d.parser (.text text) =
      match d.reader.readByAny? d.formats text.toList with
      | some t => .ok (.date t)
      | none => .error (.ofValue (.text text) "date") := by
  have other : (Value.text text).satisfies .date = false := rfl
  have notNull : (Value.text text).isNull = false := rfl
  simp only [parser, ValueParser.date, ValueParser.reading, other, ValueParser.nonBlankText,
    notNull, Value.scalarText?]
  cases read : d.reader.readByAny? d.formats text.toList with
  | none => cases Text.allBlank text.toList <;> simp [read]
  | some t => simp [read, not_blank_of_readByAny? read]

theorem parser_text_eq_ok_iff {text : String} {w : Value} :
    d.parser (.text text) = .ok w ↔
      ∃ format t, EarliestReads d.reader d.formats format text.toList t ∧ w = .date t := by
  rw [parser_text]
  cases read : d.reader.readByAny? d.formats text.toList with
  | none =>
    refine ⟨nofun, ?_⟩
    rintro ⟨format, t, reads, -⟩
    cases read.symm.trans (readByAny?_eq_some_iff.2 ⟨format, reads⟩)
  | some t =>
    simp only [Except.ok.injEq]
    constructor
    · rintro rfl
      obtain ⟨format, reads⟩ := readByAny?_eq_some_iff.1 read
      exact ⟨format, t, reads, rfl⟩
    · rintro ⟨format, t', reads, rfl⟩
      cases read.symm.trans (readByAny?_eq_some_iff.2 ⟨format, reads⟩)
      rfl

theorem exists_parsed_iff {text : String} :
    (∃ w, d.parser (.text text) = .ok w) ↔
      ∃ format ∈ d.formats, ∃ t, d.reader.read? format text.toList = some t := by
  rw [parser_text]
  cases read : d.reader.readByAny? d.formats text.toList with
  | none =>
    rw [FormatReader.readByAny?, List.findSome?_eq_none_iff] at read
    refine ⟨nofun, ?_⟩
    rintro ⟨format, listed, t, reads⟩
    cases (read format listed).symm.trans reads
  | some t =>
    obtain ⟨format, before, after, parts, -, reads⟩ := readByAny?_eq_some_iff.1 read
    exact ⟨fun _ => ⟨format, by simp [parts], t, reads⟩, fun _ => ⟨_, rfl⟩⟩

theorem EarliestReads.parser_eq {text : String}
    (reads : EarliestReads d.reader d.formats format text.toList t) :
    d.parser (.text text) = .ok (.date t) :=
  parser_text_eq_ok_iff.2 ⟨format, t, reads, rfl⟩

theorem EarliestReads.after {text : String}
    (reads : EarliestReads d.reader d.formats format text.toList t)
    (later : List Step) (kept : stays later format = true) :
    (later.foldl perform d).parser (.text text) = .ok (.date t) := by
  obtain ⟨added, leaves⟩ := exists_leaves d later
  have reads := reads.of_leaves leaves kept
  rw [← reader_foldl_perform d later] at reads
  exact reads.parser_eq

/-- A list of formats that is changed through handles is one list. What stays keeps its order and
what is added comes last; a text has the value that the earliest format gives it, and keeps it until
this format is taken away. The registry seeded with the list reads dates by it. -/
theorem shared_formats (start : DateFormats) (uses : List (Shared.Use Step)) :
    let shared := uses.foldl (Shared.use perform) { content := start }
    let steps := Shared.made 1 uses
    ∃ d, (∀ handle < shared.handles, shared.get? handle = some d) ∧ d.reader = start.reader ∧
      (∃ added, Leaves start.formats steps d.formats added) ∧
      (start.formats.Nodup → d.formats.Nodup) ∧
      (∀ format, (d.add format).formats =
        if format ∈ d.formats then d.formats else d.formats ++ [format]) ∧
      (∀ format, ((d.remove format).1 = true ↔ format ∈ d.formats) ∧
        (d.remove format).2.formats = d.formats.filter (· ≠ format) ∧
        format ∉ (d.remove format).2.formats) ∧
      d.clear.formats = [] ∧
      (∀ text, (∃ w, d.parser (.text text) = .ok w) ↔
        ∃ format ∈ d.formats, ∃ t, d.reader.read? format text.toList = some t) ∧
      (∀ text w, d.parser (.text text) = .ok w ↔
        ∃ format t, EarliestReads d.reader d.formats format text.toList t ∧ w = .date t) ∧
      (∀ text format t, EarliestReads d.reader d.formats format text.toList t → ∀ later : List Step,
        stays later format = true → (later.foldl perform d).parser (.text text) = .ok (.date t)) ∧
      ∀ text, ({ CoercionRegistry.seeded with dates := d } : CoercionRegistry).coerce (some .date)
        (.text text) = d.parser (.text text) := by
  intro shared steps
  have content : shared.content = steps.foldl perform start :=
    Shared.content_foldl_use perform { content := start } uses
  obtain ⟨added, leaves⟩ := exists_leaves start steps
  rw [← content] at leaves
  have reader : shared.content.reader = start.reader := by rw [content, reader_foldl_perform]
  refine ⟨shared.content, fun _ => shared.get?_issued, reader, ⟨added, leaves⟩, leaves.nodup_final,
    shared.content.formats_add, fun format => ⟨?reported, ?filtered, ?gone⟩, rfl,
    fun _ => exists_parsed_iff, fun _ _ => parser_text_eq_ok_iff, fun _ _ _ reads => reads.after,
    fun text => ?seeded⟩
  case reported => simp [remove]
  case filtered =>
    refine List.filter_congr fun other _ => ?_
    by_cases same : other = format <;> simp [same]
  case gone => simp [remove]
  case seeded =>
    have other : (Value.text text).satisfies .date = false := rfl
    simp only [CoercionRegistry.coerce, other, CoercionRegistry.parser?_seeded]
    rfl

end DateFormats

end Criteria
