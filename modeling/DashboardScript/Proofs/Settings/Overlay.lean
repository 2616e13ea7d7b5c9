import DashboardScript.Proofs.Settings.Writing
import DashboardScript.Run

-- Settings are the defaults with what a configuration file gives laid over them.
namespace DashboardScript.Settings

-- The places of a configuration file, the first of which counts.
def configurationFiles : List String := plainFile :: formattedFiles.map Prod.fst

-- Of all configuration files there is this one, with this text.
structure OnlyFile (files : Files Id) (format : Format) (text : String) : Prop where
  isFile : files.isFile format.file = true
  held : files.read format.file = .ok text.toUTF8
  alone : ∀ file ∈ configurationFiles, file ≠ format.file → files.isFile file = false

section Load

variable {files : Files Id} {readers : Readers} {format : Format} {text : String}

-- The first file with a format that there is.
def firstFile? (files : Files Id) : Option (String × FileFormat) :=
  formattedFiles.find? fun entry => files.isFile entry.1

theorem findM?_isFile (files : Files Id) :
    (formattedFiles.findM? fun (file, _) => files.isFile file : Id _) = firstFile? files :=
  List.findM?_pure (m := Id) _ formattedFiles

theorem load_of_first {file : String} {format : FileFormat} {bytes : ByteArray}
    (hplain : files.isFile plainFile = false) (hfirst : firstFile? files = some (file, format))
    (hread : files.read file = .ok bytes) :
    load files readers =
      (ofBytes (format.entries readers file) bytes).mapError (Fault.message file) := by
  have hfind := (findM?_isFile files).trans hfirst
  simp only [load, bind, pure, hplain, hfind, hread, Bool.false_eq_true, if_false]

theorem OnlyFile.firstFile?_eq (h : OnlyFile files format text) :
    firstFile? files = some (format.file, .own format) := by
  have hfound := h.isFile
  cases format with
  | toml => simp only [firstFile?, formattedFiles, List.find?_cons, hfound]
  | json =>
      have htoml : files.isFile Format.toml.file = false := h.alone _ (by decide) (by decide)
      simp only [firstFile?, formattedFiles, List.find?_cons, htoml, hfound]

theorem load_of_onlyFile (h : OnlyFile files format text) :
    load files readers =
      (ofBytes format.entries text.toUTF8).mapError (Fault.message format.file) := by
  have hplain : files.isFile plainFile = false := by
    cases format <;> exact h.alone plainFile List.mem_cons_self (by decide)
  exact load_of_first hplain h.firstFile?_eq h.held

theorem load_of_no_file (h : ∀ file ∈ configurationFiles, files.isFile file = false) :
    load files readers = .ok {} := by
  have hnone : firstFile? files = none := by
    refine List.find?_eq_none.mpr fun entry hentry => ?_
    rw [h entry.1 (List.mem_cons_of_mem _ (List.mem_map_of_mem hentry))]
    exact Bool.false_ne_true
  have hfind := (findM?_isFile files).trans hnone
  have hplain := h plainFile List.mem_cons_self
  simp only [load, bind, pure, hplain, hfind, Bool.false_eq_true, if_false]

theorem load_of_writes {assignment : Assignment} (hwrites : format.Writes text assignment.given)
    (honly : OnlyFile files format text) :
    load files readers = (fromTexts assignment.value?).mapError (Fault.message format.file) := by
  rw [load_of_onlyFile honly, hwrites.ofBytes_eq]

end Load

-- A file of either format gives each setting the text that it says and leaves the others alone,
-- however it is spelled and in which order. A choice by anything but a name fails for the choice.
-- What readers there are for other formats makes no difference.
theorem load_overlay (assignment : Assignment) :
    (∀ format : Format, ∃ text, format.Writes text assignment.given) ∧
    (assignment.Chooses → ∃ settings : Settings,
      (∀ key : Key, key.shown settings = (assignment.value? key).getD key.default) ∧
      ∀ (files : Files Id) (readers : Readers) (format : Format) (text : String),
        format.Writes text assignment.given → OnlyFile files format text →
          load files readers = .ok settings) ∧
    (¬assignment.Chooses → ∃ (key : Key) (choice : String),
      assignment.value? key = some choice ∧ ¬key.Accepts choice ∧
      ∀ (files : Files Id) (readers : Readers) (format : Format) (text : String),
        format.Writes text assignment.given → OnlyFile files format text →
          load files readers = .error (key.complaint choice)) ∧
    ∀ (files : Files Id) (readers : Readers),
      (∀ file ∈ configurationFiles, files.isFile file = false) →
        load files readers = .ok {} ∧ ∀ key : Key, key.shown {} = key.default := by
  refine ⟨exists_writes assignment, fun hchooses => ?_, fun hnot => ?_,
    fun files readers hnone => ?_⟩
  · obtain ⟨settings, hsettings, hshown, -⟩ | ⟨key, choice, -, hgiven, hrefused, -⟩ :=
      fromTexts_cases assignment.value?
    · refine ⟨settings, hshown, fun files readers format text hwrites honly => ?_⟩
      rw [load_of_writes hwrites honly, hsettings]
      rfl
    · exact absurd (hchooses key choice hgiven) hrefused
  · obtain ⟨settings, -, -, haccepts⟩ | ⟨key, choice, fault, hgiven, hrefused, hfault, hmessage⟩ :=
      fromTexts_cases assignment.value?
    · exact absurd haccepts hnot
    · refine ⟨key, choice, hgiven, hrefused, fun files readers format text hwrites honly => ?_⟩
      rw [load_of_writes hwrites honly, hfault, ← hmessage format.file]
      rfl
  · exact ⟨load_of_no_file hnone, Key.shown_default⟩

-- Files among which there is one of configuration.
def oneFile (format : Format) (text : String) : Files Id where
  isFile file := file == format.file
  read file := if file = format.file then .ok text.toUTF8 else .error .notFound

theorem onlyFile_oneFile (format : Format) (text : String) :
    OnlyFile (oneFile format text) format text where
  isFile := beq_self_eq_true _
  held := if_pos rfl
  alone _ _ hne := beq_eq_false_iff_ne.mpr hne

section Edge

-- Two texts are given, one of them empty and in the group.
def edge : Assignment where
  entries := [(.setting .uid, ""), (.setting .literalStyle, "bare")]
  once := by decide
  plain := by decide

-- A choice is given by what is no name of it.
def skipped : Assignment where
  entries := [(.setting .unsupportedPolicy, "Skip")]
  once := by decide
  plain := by decide

section Toml

open Toml.Grammar

def edgeDocument : Document :=
  let tight : Blanks := ⟨[], List.forall_mem_nil _⟩
  let blank : Blanks := ⟨[' '], List.forall_mem_singleton.mpr rfl⟩
  let remark : Remark := ⟨" no quotes".toList, List.all_eq_true.mp rfl⟩
  { lines := [
      (.entry tight ⟨word "literal_style" (by decide), []⟩ blank blank
        (verbatim "bare" (by decide)) ⟨blank, some remark⟩, .feed),
      (.header tight tight ⟨word "preamble" (by decide), []⟩ tight ⟨tight, none⟩, .feed),
      (.entry tight ⟨word "uid" (by decide), []⟩ tight tight (verbatim "" (by decide))
        ⟨tight, none⟩, .feed)]
    last := .blank ⟨tight, none⟩ }

def skippedDocument : Document :=
  let tight : Blanks := ⟨[], List.forall_mem_nil _⟩
  { lines := []
    last := .entry tight ⟨word "unsupported_panel_policy" (by decide), []⟩ tight tight
      (verbatim "Skip" (by decide)) ⟨tight, none⟩ }

theorem writes_edge_toml : Format.toml.Writes
    "literal_style = \"bare\" # no quotes\n[preamble]\nuid=\"\"\n" edge.given := by
  refine ⟨edgeDocument, String.toList_inj.mp ?_, .inr ⟨[_], [_], rfl, ?_⟩, ?_⟩
  · rw [String.toList_ofList]
    decide
  · rintro statement hstatement
    obtain rfl | rfl := List.mem_pair.mp hstatement
    · exact ⟨_, _, rfl⟩
    · exact ⟨_, _, rfl⟩
  · exact List.Perm.swap _ _ _

theorem writes_skipped : Format.toml.Writes "unsupported_panel_policy=\"Skip\"" skipped.given := by
  refine ⟨skippedDocument, String.toList_inj.mp ?_, .inl ?_, .refl _⟩
  · rw [String.toList_ofList]
    decide
  · rintro statement hstatement
    obtain rfl := List.mem_singleton.mp hstatement
    exact ⟨_, _, rfl⟩

end Toml

section Json

open Json.Grammar

theorem forall_mem_nil_blank : ∀ c ∈ ([] : List Char), c ∈ [' ', '\t', '\n', '\r'] :=
  List.forall_mem_nil _

def tight : Blanks := ⟨[], forall_mem_nil_blank⟩

def plainGlyphs (text : String) (h : text.toList.all Glyph.isRaw) : List Glyph :=
  Glyph.raws text.toList h

def tightMember (key : List Glyph) (value : List Char) : MemberText :=
  ⟨tight, key, tight, ⟨[' '], List.forall_mem_singleton.mpr List.mem_cons_self⟩, value, tight⟩

def edgeGroup : List MemberText := [tightMember (plainGlyphs "uid" (by decide)) (quotedText [])]

def edgeMembers : List MemberText :=
  [tightMember (plainGlyphs "preamble" (by decide)) (bracedText tight edgeGroup),
    tightMember (plainGlyphs "literal_style" (by decide))
      (quotedText (plainGlyphs "bare" (by decide)))]

theorem writes_edge_json : Format.json.Writes
    "\x7b\"preamble\": \x7b\"uid\": \"\"\x7d,\"literal_style\": \"bare\"\x7d" edge.given := by
  refine ⟨tight, tight, tight, edgeMembers,
    [[([group, "uid"], "")], [(["literal_style"], "bare")]], String.toList_inj.mp ?_, ?_, ?_, .refl _⟩
  · rw [String.toList_ofList]
    decide
  · decide
  · refine .cons ?_ (.cons ?_ .nil)
    · have hinner : List.Forall₂ GivesText edgeGroup [("uid", "")] := .cons ⟨rfl, [], rfl, rfl⟩ .nil
      exact .group rfl rfl hinner
    · exact .text ⟨rfl, _, rfl, rfl⟩ (by decide)

end Json

-- A comment, a header and the order of what is given make no difference.
theorem load_overlay_edge :
    load (oneFile .toml "literal_style = \"bare\" # no quotes\n[preamble]\nuid=\"\"\n")
        Readers.absent = .ok { literalStyle := .bare, preamble := { uid := "" } } ∧
      load (oneFile .json "\x7b\"preamble\": \x7b\"uid\": \"\"\x7d,\"literal_style\": \"bare\"\x7d")
        Readers.absent = .ok { literalStyle := .bare, preamble := { uid := "" } } ∧
      load (oneFile .toml "unsupported_panel_policy=\"Skip\"") Readers.absent =
        .error (Key.unsupportedPolicy.complaint "Skip") ∧
      load (⟨fun _ => false, fun _ => .error .notFound⟩ : Files Id) Readers.absent = .ok {} := by
  obtain ⟨-, hchosen, -, hnone⟩ := load_overlay edge
  obtain ⟨-, -, hrefused, -⟩ := load_overlay skipped
  have hchooses : edge.Chooses := by
    intro key choice hchoice
    have hmem := (lookup_eq_some_iff edge.once (.setting key) choice).mp hchoice
    obtain ⟨rfl, rfl⟩ | ⟨rfl, rfl⟩ : (key = .uid ∧ choice = "") ∨
        (key = .literalStyle ∧ choice = "bare") := by
      simpa [edge] using hmem
    · decide
    · decide
  have hnot : ¬skipped.Chooses := fun h =>
    absurd (h .unsupportedPolicy "Skip" (by decide)) (by decide)
  obtain ⟨settings, hshown, hload⟩ := hchosen hchooses
  obtain rfl : settings = { literalStyle := .bare, preamble := { uid := "" } } :=
    Key.eq_of_shown fun key => (hshown key).trans (by cases key <;> rfl)
  obtain ⟨key, choice, hchoice, -, hfail⟩ := hrefused hnot
  have hmem := (lookup_eq_some_iff skipped.once (.setting key) choice).mp hchoice
  obtain ⟨rfl, rfl⟩ : key = .unsupportedPolicy ∧ choice = "Skip" := by
    simpa [skipped] using hmem
  exact ⟨hload _ _ _ _ writes_edge_toml (onlyFile_oneFile _ _),
    hload _ _ _ _ writes_edge_json (onlyFile_oneFile _ _),
    hfail _ _ _ _ writes_skipped (onlyFile_oneFile _ _), (hnone _ _ fun _ _ => rfl).1⟩

end Edge

end DashboardScript.Settings
