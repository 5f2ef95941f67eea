import Concordance.Decimal.Numeral
import Concordance.Files.Refusal

/-!
# Concordance.Fault

Everything that can go wrong, by cause, and the wording of each cause.

A term that no document contains is not a fault: a report says so and goes on.
-/

namespace Concordance

open Decimal (NumeralFault)
open Files (Refusal)

/-- Why a lexicon, or what stands for it, could not answer. -/
inductive LexiconFault
  /-- No text field has the name. -/
  | unknownField (name : String)
  /-- No document has the ordinal. -/
  | noDocument (ordinal : Nat)
  /-- The bag of a document cannot be read. -/
  | unreadableBag (ordinal : Nat)
  /-- A document frequency is zero or larger than the number of documents. -/
  | inconsistentFrequency (frequency : UInt64) (term : String) (total : Nat)
  /-- A document has an ordinal that the number of documents does not allow. -/
  | ordinalBeyond (ordinal total : Nat)
  /-- A failure known by its text only. -/
  | reported (text : String)
  deriving DecidableEq, Repr

/-- The wording of a lexicon's fault. -/
def LexiconFault.message : LexiconFault → String
  | .unknownField name => s!"unknown text field '{name}'"
  | .noDocument ordinal => s!"no document with ordinal {ordinal}"
  | .unreadableBag ordinal => s!"term vector for document {ordinal} is unreadable"
  | .inconsistentFrequency frequency term total =>
    s!"document frequency {frequency} of '{term}' is inconsistent with {total} documents"
  | .ordinalBeyond ordinal total => s!"ordinal {ordinal} exceeds document count {total}"
  | .reported text => text

/-- Why the index refuses an operation. -/
inductive IndexFault
  /-- The writer is given less memory than it needs. -/
  | tooLittleMemory
  /-- The writer is given more memory than it can use. -/
  | tooMuchMemory
  /-- The document does not match the query; `position` is where it stands in its segment. -/
  | noMatch (position : Nat)
  /-- Another writer has the folder of the index. -/
  | locked
  /-- The files of the index cannot be read or written. -/
  | unusable
  deriving DecidableEq, Repr

/-- The argument that an index fault is about, if it is about one. -/
def IndexFault.argument? : IndexFault → Option String
  | .tooLittleMemory =>
    some "The memory arena in bytes per thread needs to be at least 15000000."
  | .tooMuchMemory => some "The memory arena in bytes per thread cannot exceed 4293967295"
  | .noMatch position => some s!"Document #({position}) does not match"
  | .locked => none
  | .unusable => none

/-- The wording of an index fault. -/
def IndexFault.message (fault : IndexFault) : String :=
  match fault.argument? with
  | some text => s!"An invalid argument was passed: '{text}'"
  | none =>
    if fault = .locked then "the index is locked by another writer" else "the index is unusable"

/-- Why a query text is rejected. -/
inductive QueryFault
  /-- The text does not follow the grammar. -/
  | malformed (query : String)
  /-- A field of that name does not exist. -/
  | unknownField (name : String)
  /-- A number was expected. -/
  | notAnInteger (cause : NumeralFault)
  /-- Nothing is asked for, only excluded. -/
  | onlyExcluding
  deriving DecidableEq, Repr

/-- The wording of a query's fault. -/
def QueryFault.message : QueryFault → String
  | .malformed query => s!"Syntax Error: {query}"
  | .unknownField name => s!"Field does not exist: '{name}'"
  | .notAnInteger cause =>
    "Expected a valid integer: 'ParseIntError \x7b kind: " ++ cause.name ++ " \x7d'"
  | .onlyExcluding => "Invalid query: Only excluding terms given"

/-- Why a growth file could not be written or read. -/
inductive GrowthFault
  | refused (cause : Refusal)
  /-- A record holds bytes that are not UTF-8. -/
  | notText
  /-- A record has another number of fields than the header. -/
  | unequalLengths (expected found : Nat)
  /-- A number cannot be read. -/
  | numeral (cause : NumeralFault)
  /-- The header lacks a column. -/
  | missingColumn (name : String)
  /-- The header has a column twice. -/
  | duplicateColumn (name : String)
  /-- A record is too short for the columns to be taken in order. -/
  | tooFewColumns (found : Nat)
  /-- A failure known by its text only. -/
  | reported (text : String)
  deriving DecidableEq, Repr

/-- The wording of what is wrong with a record's fields. -/
def GrowthFault.detail? : GrowthFault → Option String
  | .numeral cause => some cause.message
  | .missingColumn name => some ("missing field `" ++ name ++ "`")
  | .duplicateColumn name => some ("duplicate field `" ++ name ++ "`")
  | .tooFewColumns found =>
    some s!"invalid length {found}, expected struct GrowthPoint with 2 elements"
  | _ => none

/-- The wording of a growth file's fault. -/
def GrowthFault.message : GrowthFault → String
  | .refused cause => cause.message
  | .notText => "CSV parse error: invalid UTF-8"
  | .unequalLengths expected found =>
    s!"CSV error: found record with {found} fields, but the previous record has {expected} fields"
  | .reported text => text
  | fault => "CSV deserialize error: " ++ fault.detail?.getD ""

/-- Why a corpus cannot be used. -/
inductive CorpusFault
  | notAFolder (root : String)
  | reported (text : String)
  deriving DecidableEq, Repr

/-- The wording of a corpus fault. -/
def CorpusFault.message : CorpusFault → String
  | .notAFolder root => s!"'{root}' is not a directory"
  | .reported text => text

/-- Why a configuration, or the index it names, cannot be used. -/
inductive ConfigFault
  | unknownField (name : String)
  | tooLittleMemory
  | zeroTokenLength
  | zeroResultLimit
  /-- There is no index where one is needed. -/
  | noIndex (folder : String)
  /-- The index holds no documents where some are needed. -/
  | emptyIndex (folder : String)
  | reported (text : String)
  deriving DecidableEq, Repr

/-- The wording of a configuration's fault. -/
def ConfigFault.message : ConfigFault → String
  | .unknownField name =>
    s!"unknown field '{name}', expected one of: title, author, bib, content"
  | .tooLittleMemory => "writer_memory_bytes must be at least 15000000"
  | .zeroTokenLength => "max_token_length must be positive"
  | .zeroResultLimit => "result_limit must be positive"
  | .noIndex folder => s!"no index at {folder}; run `termstat index <CORPUS>` first"
  | .emptyIndex folder =>
    s!"index at {folder} holds no committed documents; run `termstat index <CORPUS>`"
  | .reported text => text

/-- A request or report that could not be carried out. -/
inductive RequestFault
  /-- The report file cannot be opened. -/
  | reportNotOpened (path : String) (cause : Refusal)
  /-- The report file takes no more. -/
  | reportNotWritten (path : String) (cause : Refusal)
  /-- A request for terms names none. -/
  | nothingRequested
  /-- One report file is given for several reports. -/
  | severalForOneFile
  | invalidArgument (text : String)
  | internal (text : String)
  | reported (text : String)
  deriving DecidableEq, Repr

/-- The wording of a request's fault. -/
def RequestFault.message : RequestFault → String
  | .reportNotOpened path cause => s!"failed to open report file {path}: {cause.message}"
  | .reportNotWritten path cause => s!"failed to write report to {path}: {cause.message}"
  | .nothingRequested => "Invalid argument: give at least one term, --top N or --all"
  | .severalForOneFile => "Invalid argument: --output takes a single term, --top N or --all"
  | .invalidArgument text => s!"Invalid argument: {text}"
  | .internal text => s!"Internal error: {text}"
  | .reported text => text

/-- Everything that can go wrong. -/
inductive Fault
  /-- The file system refused an operation. -/
  | files (cause : Refusal)
  /-- A document ordinal lies outside the range tracked so far. -/
  | document (ordinal tracked : Nat)
  /-- A lexicon could not answer. -/
  | lexicon (cause : LexiconFault)
  /-- The index refused an operation. -/
  | index (cause : IndexFault)
  /-- A query text was rejected. -/
  | query (cause : QueryFault)
  /-- The folder of the index could not be opened. -/
  | indexFolder (path : String)
  /-- Vocabulary growth could not be written or read. -/
  | growth (path : String) (cause : GrowthFault)
  /-- The corpus cannot be used. -/
  | corpus (cause : CorpusFault)
  /-- A folder could not be listed. -/
  | walk (path : String) (cause : Refusal)
  /-- The configuration is invalid. -/
  | config (cause : ConfigFault)
  /-- A text is not the JSON that was expected. -/
  | json
  /-- The configuration file cannot be read. -/
  | configFile (path : String)
  /-- A request or report could not be carried out. -/
  | request (cause : RequestFault)
  deriving DecidableEq, Repr

namespace Fault

/-- The wording of a fault. -/
def message : Fault → String
  | .files cause => s!"I/O error: {cause.message}"
  | .document ordinal tracked =>
    s!"Invalid document: ordinal {ordinal} is out of range ({tracked} documents tracked)"
  | .lexicon cause => s!"Backend error: {cause.message}"
  | .index cause => s!"Backend error: {cause.message}"
  | .query cause => s!"Backend error: query parse failed: {cause.message}"
  | .indexFolder path => s!"Backend error: Directory does not exist: '{path}'."
  | .growth path cause => s!"Persistence error: failed to write {path}: {cause.message}"
  | .corpus cause => s!"Corpus error: {cause.message}"
  | .walk path cause => s!"Walk error: IO error for operation on {path}: {cause.message}"
  | .config cause => s!"Configuration error: {cause.message}"
  | .json => "JSON error: the text is not what was expected"
  | .configFile path => s!"Anyhow error: failed to read config file {path}"
  | .request cause => s!"Error: {cause.message}"

/-- Whether a fault arose in the index or in the lexicon. -/
def isAboutIndex : Fault → Bool
  | .lexicon _ => true
  | .index _ => true
  | .query _ => true
  | .indexFolder _ => true
  | _ => false

/-- Whether a fault is about vocabulary growth that could not be saved. -/
def isAboutGrowth : Fault → Bool
  | .growth _ _ => true
  | _ => false

/-- Whether a fault has another one as its cause that its own wording quotes. -/
def hasCause : Fault → Bool
  | .files _ => true
  | .index _ => true
  | .query _ => true
  | .indexFolder _ => true
  | .growth _ _ => true
  | .walk _ _ => true
  | .json => true
  | .configFile _ => true
  | _ => false

end Fault

end Concordance
