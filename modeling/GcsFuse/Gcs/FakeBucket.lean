import Mathlib.Data.List.Basic
/-!
# The fake bucket's listing

`internal/storage/fake/bucket.go`: the in-memory bucket the repository
tests against, whose `ListObjects` is the reference semantics of a
listing. Names are Go strings, compared byte by byte, so they are byte
lists here. The bucket keeps its objects strictly increasing by name;
under that invariant the binary searches of `sort.Search` find the first
index where the predicate holds, which is how `lowerBound` reads here.
-/

namespace GcsFuse

namespace Gcs

/-- `[]byte(s)`. -/
def bytes (s : String) : List UInt8 := s.toUTF8.data.toList

/-- `gcs.ListObjectsRequest`: the fields the fake bucket reads. -/
structure ListObjectsRequest where
  /-- `Prefix`. -/
  namePrefix : List UInt8
  delimiter : List UInt8
  includeTrailingDelimiter : Bool
  continuationToken : List UInt8
  maxResults : ℕ
  startOffset : List UInt8

/-- `gcs.Listing`, with each object by its name. -/
structure Listing where
  minObjects : List (List UInt8)
  collapsedRuns : List (List UInt8)
  continuationToken : List UInt8
  deriving DecidableEq, Repr

/-- The fake bucket's objects and folders, by name. -/
structure FakeBucket where
  objects : List (List UInt8)
  folders : List (List UInt8)

/-- `fakeObjectSlice.lowerBound`: the first index whose name is at least
`name`, or the length. -/
def lowerBound (s : List (List UInt8)) (name : List UInt8) : ℕ :=
  s.findIdx fun n => !decide (n < name)

/-- `prefixSuccessor` on the bytes read from the end: increment the last
byte below `0xff`, dropping the `0xff`s after it. -/
def prefixSuccessorRev : List UInt8 → List UInt8
  | [] => []
  | b :: bs => if b ≠ 0xff then (b + 1) :: bs else prefixSuccessorRev bs

/-- `prefixSuccessor`: the least string above every string that starts
with `prefix`, or the empty string if there is none. -/
def prefixSuccessor (pre : List UInt8) : List UInt8 := (prefixSuccessorRev pre.reverse).reverse

/-- `fakeObjectSlice.prefixUpperBound`. -/
def prefixUpperBound (s : List (List UInt8)) (pre : List UInt8) : ℕ :=
  let successor := prefixSuccessor pre
  if successor = [] then s.length else lowerBound s successor

/-- `strings.Index`: the first index at which `sep` occurs in `s`. -/
def index (s sep : List UInt8) : Option ℕ :=
  if sep.isPrefixOf s then some 0
  else
    match s with
    | [] => none
    | _ :: t => (index t sep).map (· + 1)

/-- One round of the scan of `ListObjects`: the object is collapsed into
a run, or returned. The state is the objects and runs so far and
`lastResultWasPrefix`. -/
def scanObject (b : FakeBucket) (req : ListObjectsRequest)
    (acc : List (List UInt8) × List (List UInt8) × Bool) (name : List UInt8) :
    List (List UInt8) × List (List UInt8) × Bool :=
  let returned := (acc.1 ++ [name], acc.2.1, false)
  if req.delimiter ≠ [] then
    let nameMinusQueryPrefix := name.drop req.namePrefix.length
    match index nameMinusQueryPrefix req.delimiter with
    | none => returned
    | some delimiterIndex =>
      let resultPrefix := name.take (delimiterIndex + req.namePrefix.length + req.delimiter.length)
      -- a run is saved unless it repeats the last one
      let runs := if acc.2.1.getLast? = some resultPrefix then acc.2.1 else acc.2.1 ++ [resultPrefix]
      if b.folders.contains resultPrefix then (acc.1, runs, true)
      else if delimiterIndex ≠ nameMinusQueryPrefix.length - 1 ∨ !req.includeTrailingDelimiter then
        (acc.1, runs, true)
      else (acc.1 ++ [name], runs, false)
  else returned

/-- `bucket.ListObjects`. -/
def listObjects (b : FakeBucket) (req : ListObjectsRequest) : Except String Listing :=
  let maxResults := if req.maxResults = 0 then 1000 else req.maxResults
  let nameStart :=
    if req.continuationToken ≠ [] ∧ req.namePrefix < req.continuationToken then req.continuationToken
    else req.namePrefix
  let indexStart :=
    if req.startOffset ≠ [] then max (lowerBound b.objects nameStart) (lowerBound b.objects req.startOffset)
    else lowerBound b.objects nameStart
  let prefixLimit := prefixUpperBound b.objects req.namePrefix
  let indexLimit := min (indexStart + maxResults) prefixLimit
  let scan := ((b.objects.drop indexStart).take (indexLimit - indexStart)).foldl
    (scanObject b req) ([], [], false)
  if indexLimit < prefixLimit then
    if scan.2.2 then
      -- skip every other object of the last run
      let token := prefixSuccessor (scan.2.1.getLast?.getD [])
      if token = [] then .error "unexpected empty string from prefixSuccessor"
      else .ok ⟨scan.1, scan.2.1, token⟩
    else .ok ⟨scan.1, scan.2.1, b.objects.getD indexLimit []⟩
  else .ok ⟨scan.1, scan.2.1, []⟩

end Gcs

end GcsFuse
