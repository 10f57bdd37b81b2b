/-
# A dump is all or nothing

`Prints` says what a command line is answered with when nothing fails, and
`FailsFirst` which failure comes first, each in terms of what the named files
hold: the arguments, the options file, the file of the snapshot and the
decode, in this order.  Every stage has one statement about when it succeeds
and one about how it fails.  What an options file chooses is told by its
table (`Options.Chooses`).

The main statement is `launch_allOrNothing`: for all files and command lines
a run prints the whole of its answer and ends well, or reports its first
failure and prints nothing.  Which failure is the first does not depend on
what the later stages would have met.
-/
import Adventure.Dump
import Adventure.Proofs.Options
import Adventure.Proofs.OrderedMap

namespace Adventure

/-! ## Wordings -/

/-- A fault is of a known kind when the table of kinds has that one for its number. -/
theorem SystemFault.kind_eq_iff {f : SystemFault} {kind : String} (h : kind ≠ "Uncategorized") :
    f.kind = kind ↔ (f.code, kind) ∈ kinds.entries := by
  rw [← OrderedMap.get?_eq_some_iff, SystemFault.kind]
  cases kinds.get? f.code with
  | none => simp [h.symm]
  | some found => simp

namespace Dump

variable {files : Files} {line : List String}

/-- Three numbers have wordings of their own: that of a missing name, and the
two of a denial. -/
theorem unopenedMessage_eq (image : String) (why : SystemFault) :
    unopenedMessage image why =
      if why.code = 2 then "Image file not found: " ++ image
      else if why.code = 1 ∨ why.code = 13 then "Permission denied reading image: " ++ image
      else "Cannot open image '" ++ image ++ "': " ++ why.described := by
  have missing : why.kind = "NotFound" ↔ why.code = 2 := by
    rw [SystemFault.kind_eq_iff (by decide)]
    simp [SystemFault.kinds]
  have denied : why.kind = "PermissionDenied" ↔ why.code = 1 ∨ why.code = 13 := by
    rw [SystemFault.kind_eq_iff (by decide)]
    simp [SystemFault.kinds]
  simp only [unopenedMessage, missing, denied]

/-! ## What the stages come to -/

/-- A configuration chooses options: the defaults, or those of its file. -/
inductive Chooses (files : Files) : Option String → Options → Prop where
  | defaults : Chooses files none Options.default
  | file {name : String} {bytes : Array UInt8} {text : String} {root : Toml.Entries}
      {options : Options} :
      files name = .ok (.file bytes) → String.fromUTF8? ⟨bytes⟩ = some text →
        Toml.read? text = some root → Options.Chooses root options →
          Chooses files (some name) options

/-- What is wrong with an options file. -/
inductive Spoils (files : Files) (name : String) : Failure → Prop where
  | unopened {why : SystemFault} : files name = .error why →
      Spoils files name (.configUnreadable why)
  | unread {why : SystemFault} : files name = .ok (.unreadable why) →
      Spoils files name (.configUnreadable why)
  | notText {bytes : Array UInt8} : files name = .ok (.file bytes) →
      String.fromUTF8? ⟨bytes⟩ = none → Spoils files name .configNotText
  | notToml {bytes : Array UInt8} {text : String} :
      files name = .ok (.file bytes) → String.fromUTF8? ⟨bytes⟩ = some text →
        Toml.read? text = none → Spoils files name .configRejected
  | refused {bytes : Array UInt8} {text : String} {root : Toml.Entries} :
      files name = .ok (.file bytes) → String.fromUTF8? ⟨bytes⟩ = some text →
        Toml.read? text = some root → Options.Refused root → Spoils files name .configRejected

/-- What is wrong with the file of a snapshot. -/
inductive Withholds (files : Files) (image : String) : Failure → Prop where
  | unopened {why : SystemFault} : files image = .error why →
      Withholds files image (.imageUnopened image why)
  | unread {why : SystemFault} : files image = .ok (.unreadable why) →
      Withholds files image (.imageUnreadable why)

/-- What a command line is answered with when nothing fails. -/
inductive Prints (files : Files) (line : List String) : String → Prop where
  | usage : CommandLine.parse line.tail = .ok .help →
      Prints files line (CommandLine.usage (CommandLine.program line))
  | dump {asToml : Bool} {config : Option String} {image : String} {options : Options}
      {bytes : Array UInt8} {database : Database} :
      CommandLine.parse line.tail = .ok (.dump asToml config image) →
      Chooses files config options → files image = .ok (.file bytes) →
      (Database.decode ⟨bytes⟩ options).result = .ok database →
        Prints files line (if asToml then database.toToml else database.listing)

/-- The first failure that a command line meets. -/
inductive FailsFirst (files : Files) (line : List String) : Failure → Prop where
  | arguments {why : CommandLine.Refusal} : CommandLine.parse line.tail = .error why →
      FailsFirst files line (.arguments why)
  | options {asToml : Bool} {name image : String} {why : Failure} :
      CommandLine.parse line.tail = .ok (.dump asToml (some name) image) →
      Spoils files name why → FailsFirst files line why
  | image {asToml : Bool} {config : Option String} {image : String} {options : Options}
      {why : Failure} :
      CommandLine.parse line.tail = .ok (.dump asToml config image) →
      Chooses files config options → Withholds files image why → FailsFirst files line why
  | decode {asToml : Bool} {config : Option String} {image : String} {options : Options}
      {bytes : Array UInt8} {why : Fault} :
      CommandLine.parse line.tail = .ok (.dump asToml config image) →
      Chooses files config options → files image = .ok (.file bytes) →
      (Database.decode ⟨bytes⟩ options).result = .error why →
        FailsFirst files line (.undecodable image why)

/-! ## The stages one by one -/

theorem Chooses.readOptions {config : Option String} {options : Options}
    (h : Chooses files config options) : readOptions files config = .ok options := by
  cases h with
  | defaults => rfl
  | file hfile htext hread hchooses =>
      have hoptions := Options.ofToml_eq_ok_iff.2 ⟨_, hread, hchooses⟩
      simp only [Dump.readOptions, hfile, htext, hoptions]

theorem Spoils.readOptions {name : String} {why : Failure} (h : Spoils files name why) :
    readOptions files (some name) = .error why := by
  cases h with
  | unopened hfile | unread hfile => simp only [Dump.readOptions, hfile]
  | notText hfile htext => simp only [Dump.readOptions, hfile, htext]
  | notToml hfile htext hread =>
      have hoptions := Options.ofToml_eq_error_iff.2 ⟨rfl, .inl hread⟩
      simp only [Dump.readOptions, hfile, htext, hoptions]
  | refused hfile htext hread hrefused =>
      have hoptions := Options.ofToml_eq_error_iff.2 ⟨rfl, .inr ⟨_, hread, hrefused⟩⟩
      simp only [Dump.readOptions, hfile, htext, hoptions]

/-- The file of a configuration chooses options, or there is something wrong with it. -/
theorem chooses_or_spoils_of_file {name : String} {bytes : Array UInt8}
    (hfile : files name = .ok (.file bytes)) :
    (∃ options, Chooses files (some name) options) ∨ ∃ why, Spoils files name why := by
  cases htext : String.fromUTF8? ⟨bytes⟩ with
  | none => exact .inr ⟨_, .notText hfile htext⟩
  | some text =>
      cases hoptions : Options.ofToml text with
      | ok options =>
          obtain ⟨root, hread, hchooses⟩ := Options.ofToml_eq_ok_iff.1 hoptions
          exact .inl ⟨options, .file hfile htext hread hchooses⟩
      | error why =>
          obtain ⟨-, hrejected⟩ := Options.ofToml_eq_error_iff.1 hoptions
          rcases hrejected with hread | ⟨root, hread, hrefused⟩
          · exact .inr ⟨_, .notToml hfile htext hread⟩
          · exact .inr ⟨_, .refused hfile htext hread hrefused⟩

/-- A configuration chooses options, or there is something wrong with its file. -/
theorem chooses_or_spoils (files : Files) (config : Option String) :
    (∃ options, Chooses files config options) ∨
      ∃ name why, config = some name ∧ Spoils files name why := by
  cases config with
  | none => exact .inl ⟨_, .defaults⟩
  | some name =>
      cases hfile : files name with
      | error why => exact .inr ⟨name, _, rfl, .unopened hfile⟩
      | ok opened =>
          cases opened with
          | unreadable why => exact .inr ⟨name, _, rfl, .unread hfile⟩
          | file bytes =>
              rcases chooses_or_spoils_of_file hfile with h | ⟨why, h⟩
              · exact .inl h
              · exact .inr ⟨name, why, rfl, h⟩

theorem Withholds.readSnapshot {image : String} {why : Failure} (h : Withholds files image why) :
    readSnapshot files image = .error why := by
  cases h with
  | unopened hfile | unread hfile => simp only [Dump.readSnapshot, hfile]

/-- The file of a snapshot can be read, or it withholds its bytes. -/
theorem file_or_withholds (files : Files) (image : String) :
    (∃ bytes, files image = .ok (.file bytes)) ∨ ∃ why, Withholds files image why := by
  cases hfile : files image with
  | error why => exact .inr ⟨_, .unopened hfile⟩
  | ok opened =>
      cases opened with
      | unreadable why => exact .inr ⟨_, .unread hfile⟩
      | file bytes => exact .inl ⟨bytes, rfl⟩

section Database

variable {config : Option String} {image : String} {options : Options} {bytes : Array UInt8}

/-- With options and a snapshot it is the decode that settles the rest. -/
theorem readDatabase_of_file (hoptions : Chooses files config options)
    (hfile : files image = .ok (.file bytes)) :
    readDatabase files config image =
      match (Database.decode ⟨bytes⟩ options).result with
      | .ok database => .ok database
      | .error why => .error (.undecodable image why) := by
  simp only [readDatabase, hoptions.readOptions, readSnapshot, hfile]
  rfl

theorem readDatabase_of_spoils {name : String} {why : Failure} (h : Spoils files name why) :
    readDatabase files (some name) image = .error why := by
  simp only [readDatabase, h.readOptions]
  rfl

theorem readDatabase_of_withholds {why : Failure} (hoptions : Chooses files config options)
    (h : Withholds files image why) : readDatabase files config image = .error why := by
  simp only [readDatabase, hoptions.readOptions, h.readSnapshot]
  rfl

/-- A dump that gets its database prints it. -/
theorem launch_of_database {asToml : Bool} {database : Database}
    (hparse : CommandLine.parse line.tail = .ok (.dump asToml config image))
    (h : readDatabase files config image = .ok database) :
    launch files line = .printed (if asToml then database.toToml else database.listing) := by
  simp only [launch, hparse, answer, h]
  rfl

/-- A dump that does not get its database prints nothing. -/
theorem launch_of_failure {asToml : Bool} {why : Failure}
    (hparse : CommandLine.parse line.tail = .ok (.dump asToml config image))
    (h : readDatabase files config image = .error why) :
    launch files line = .failed why := by
  simp only [launch, hparse, answer, h]
  rfl

end Database

/-! ## The whole run -/

theorem Prints.launch {text : String} (h : Prints files line text) :
    launch files line = .printed text := by
  cases h with
  | usage hparse => simp only [Dump.launch, hparse, answer]
  | dump hparse hoptions hfile hdecode =>
      refine launch_of_database hparse ?_
      rw [readDatabase_of_file hoptions hfile, hdecode]

theorem FailsFirst.launch {why : Failure} (h : FailsFirst files line why) :
    launch files line = .failed why := by
  cases h with
  | arguments hparse => simp only [Dump.launch, hparse]
  | options hparse hspoils => exact launch_of_failure hparse (readDatabase_of_spoils hspoils)
  | image hparse hoptions himage =>
      exact launch_of_failure hparse (readDatabase_of_withholds hoptions himage)
  | decode hparse hoptions hfile hdecode =>
      refine launch_of_failure hparse ?_
      rw [readDatabase_of_file hoptions hfile, hdecode]

/-- There is an answer, or a first failure. -/
theorem prints_or_failsFirst (files : Files) (line : List String) :
    (∃ text, Prints files line text) ∨ ∃ why, FailsFirst files line why := by
  cases hparse : CommandLine.parse line.tail with
  | error why => exact .inr ⟨_, .arguments hparse⟩
  | ok request =>
      cases request with
      | help => exact .inl ⟨_, .usage hparse⟩
      | dump asToml config image =>
          rcases chooses_or_spoils files config with ⟨options, hoptions⟩ | ⟨name, why, rfl, hspoils⟩
          · rcases file_or_withholds files image with ⟨bytes, hfile⟩ | ⟨why, himage⟩
            · cases hdecode : (Database.decode ⟨bytes⟩ options).result with
              | ok database => exact .inl ⟨_, .dump hparse hoptions hfile hdecode⟩
              | error why => exact .inr ⟨_, .decode hparse hoptions hfile hdecode⟩
            · exact .inr ⟨_, .image hparse hoptions himage⟩
          · exact .inr ⟨_, .options hparse hspoils⟩

/-- What a run leaves behind, told by the files alone. -/
structure AllOrNothing (files : Files) (line : List String) : Prop where
  /-- The whole answer and no fault, or one fault and nothing of an answer. -/
  either : (∃ text, Prints files line text ∧ launch files line = ⟨0, text, ""⟩) ∨
    ∃ why, FailsFirst files line why ∧ launch files line = ⟨1, "", "Error: " ++ why.message⟩
  /-- Where there is an answer, it is printed. -/
  printed : ∀ text, Prints files line text → launch files line = ⟨0, text, ""⟩
  /-- Where something fails, the first failure is reported. -/
  failed : ∀ why, FailsFirst files line why →
    launch files line = ⟨1, "", "Error: " ++ why.message⟩
  /-- What is wrong with the options is reported whatever the other files are. -/
  options : ∀ asToml name image why, CommandLine.parse line.tail =
      .ok (.dump asToml (some name) image) → Spoils files name why →
    ∀ others : Files, others name = files name →
      launch others line = ⟨1, "", "Error: " ++ why.message⟩
  /-- A snapshot that cannot be decoded is named before its fault. -/
  decode : ∀ image fault, FailsFirst files line (.undecodable image fault) →
    launch files line = ⟨1, "", "Error: " ++ (image ++ ": " ++ fault.message ++ "\n")⟩

/-- What spoils an options file is in that file. -/
theorem Spoils.congr {others : Files} {name : String} {why : Failure}
    (h : Spoils files name why) (hname : others name = files name) : Spoils others name why := by
  cases h with
  | unopened hfile => exact .unopened (hname.trans hfile)
  | unread hfile => exact .unread (hname.trans hfile)
  | notText hfile htext => exact .notText (hname.trans hfile) htext
  | notToml hfile htext hread => exact .notToml (hname.trans hfile) htext hread
  | refused hfile htext hread hrefused =>
      exact .refused (hname.trans hfile) htext hread hrefused

/-- For all files and command lines, a run is all or nothing. -/
theorem launch_allOrNothing (files : Files) (line : List String) : AllOrNothing files line where
  either := by
    rcases prints_or_failsFirst files line with ⟨text, h⟩ | ⟨why, h⟩
    · exact .inl ⟨text, h, h.launch⟩
    · exact .inr ⟨why, h, h.launch⟩
  printed := fun _ h => h.launch
  failed := fun _ h => h.launch
  options := by
    intro asToml name image why hparse hspoils others hname
    exact (FailsFirst.options hparse (hspoils.congr hname)).launch
  decode := fun _ _ h => h.launch

/-- A missing options file is reported before a missing snapshot. -/
example : launch (fun _ => .error .missing) ["quill-dump", "--config", "o", "g"] =
    ⟨1, "", "Error: Os \x7b code: 2, kind: NotFound, message: " ++
      "\"No such file or directory\" \x7d\n"⟩ := by
  decide

end Dump
end Adventure
