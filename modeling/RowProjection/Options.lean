namespace RowProjection

/-- Sizes of the working memory of targets. They have no influence on results. -/
structure Options where
  jsonBufferCapacity : Nat := 256
  compactSlotCapacity : Nat := 0
  deriving DecidableEq, Repr

end RowProjection
