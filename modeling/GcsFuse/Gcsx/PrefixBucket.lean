import GcsFuse.Gcs.FakeBucket
/-!
# prefixBucket — the view of a bucket under a prefix

`internal/gcsx/prefix_bucket.go` mounts the objects of a bucket that
start with a prefix `p`, under their names with `p` removed: a call on a
local name `n` goes to `p + n`, and names that come back lose `p`. The
view it should be is the bucket `B_p` of the objects `n` such that
`p + n` is an object of `B` (`FakeBucket.restrict`).

`ListObjects` adds `p` to the request's `Prefix` only. Its `StartOffset`,
an object name too, reaches the wrapped bucket untranslated
(`prefixBucket_ignores_startOffset`).
-/

namespace GcsFuse

namespace Gcsx

open Gcs

/-- `wrappedName`. -/
def wrappedName (pre n : List UInt8) : List UInt8 := pre ++ n

/-- `localName`: `strings.TrimPrefix`. -/
def localName (pre n : List UInt8) : List UInt8 := if pre.isPrefixOf n then n.drop pre.length else n

/-- `prefixBucket.ListObjects` over a fake bucket. -/
def prefixBucketListObjects (pre : List UInt8) (wrapped : FakeBucket) (req : ListObjectsRequest) :
    Except String Listing :=
  match listObjects wrapped { req with namePrefix := pre ++ req.namePrefix } with
  | .error err => .error err
  | .ok l =>
    .ok { l with
      minObjects := l.minObjects.map (localName pre)
      collapsedRuns := l.collapsedRuns.map (localName pre) }

/-- The bucket `B_p`: what starts with `p`, without it. -/
def FakeBucket.restrict (b : FakeBucket) (pre : List UInt8) : FakeBucket :=
  ⟨(b.objects.filter pre.isPrefixOf).map (List.drop pre.length),
    (b.folders.filter pre.isPrefixOf).map (List.drop pre.length)⟩

theorem wrappedName_localName (pre n : List UInt8) : localName pre (wrappedName pre n) = n := by
  simp [localName, wrappedName]

/-- A listing request from the root of the view, starting at `b`. -/
def startOffsetRequest : ListObjectsRequest := ⟨[], [], false, [], 0, bytes "b"⟩

/-- A bucket whose only object is `a/b`, viewed under `a/`, so the view
holds `b`. Listed from the start offset `b`, the view returns `b`, but
`prefixBucket` compares the untranslated offset `b` with the wrapped name
`a/b`, which is smaller, and returns nothing. -/
theorem prefixBucket_ignores_startOffset :
    prefixBucketListObjects (bytes "a/") ⟨[bytes "a/b"], []⟩ startOffsetRequest = .ok ⟨[], [], []⟩ ∧
      listObjects (FakeBucket.restrict ⟨[bytes "a/b"], []⟩ (bytes "a/")) startOffsetRequest =
        .ok ⟨[bytes "b"], [], []⟩ := by
  decide

end Gcsx

end GcsFuse
