import JobAtlas.Report.Summary
import JobAtlas.Source.Directory
import JobAtlas.Source.Loading
import JobAtlas.Source.Statistics

/-!
# Extractions

An extraction takes the jobs of a source to their corpus and its document. Jobs
that are not loaded are reported and otherwise leave no trace.
-/

namespace JobAtlas

/-- What comes of the extraction of many jobs. -/
structure Extraction where
  corpus : Corpus
  document : Document
  failures : List LoadFailure
deriving Inhabited

/-- Why a directory is not extracted. -/
inductive ExtractionFault where
  | missingRoot (root : Path)
  | source (fault : Source.Fault)
deriving DecidableEq, Repr

def ExtractionFault.message : ExtractionFault → String
  | missingRoot root => "Corpus root not found: " ++ root.shown
  | source fault => fault.report.message

namespace Extraction

/-- The extraction of a corpus; `time` is when it is made. -/
def ofCorpus (s : Settings) (time : String) (c : Corpus) : Extraction :=
  ⟨c, .ofCorpus c s time, []⟩

/-- The extraction of jobs, in the order in which they were found. -/
def ofJobs (s : Settings) (time : String) (jobs : List Job) : Extraction :=
  ofCorpus s time (.merge (jobs.map .ofJob))

/-- The extraction of the jobs of a source. -/
def ofSource (s : Settings) (time : String) (source : Source) :
    Except Source.Fault Extraction :=
  source.load.map fun loaded => { ofJobs s time loaded.jobs with failures := loaded.failures }

/-- The extraction of the jobs in a directory, by the extensions of the settings. -/
def ofDirectory (s : Settings) (time : String) (w : Walk) (t : Tree) (root : Path) :
    Except ExtractionFault Extraction :=
  if (t.folder? root).isNone then .error (.missingRoot root)
  else
    (ofSource s time ((Directory.ofExtensions root s.discovery.extensions).source w t)).mapError
      .source

/-- The script of statements. -/
def script (x : Extraction) : String := Report.script x.corpus

/-- The summary in plain text. -/
def summary (x : Extraction) : String := Report.summary x.document

/-- The measures of the texts that an extraction writes. -/
def statistics (x : Extraction) (tokenizer : Tokenizer) : Statistics :=
  .ofTexts "Destination" tokenizer
    [("sql_queries.sql", x.script), ("extraction_summary.txt", x.summary)]

end Extraction

end JobAtlas
