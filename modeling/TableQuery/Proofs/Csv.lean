/-
Records of comma-separated values, read one after the other. Every row of the table in a file is as wide as
its header.
-/
import TableQuery.Csv
import TableQuery.Proofs.Table.Shape

namespace TableQuery.Csv

theorem records_of_some {bytes rest : List UInt8} {fields : List Field} (h : nextRecord bytes = some (fields, rest)) :
    records bytes = (bytes, fields) :: records rest := by
  rw [records]
  split
  · rename_i hn; rw [hn] at h; cases h
  · rename_i fields' rest' hs
    rw [hs] at h
    cases h; rfl

theorem records_of_none {bytes : List UInt8} (h : nextRecord bytes = none) : records bytes = [] := by
  rw [records]
  split
  · rfl
  · rename_i hs; rw [hs] at h; cases h

/-! ## Tables -/

theorem length_decodeFields : ∀ {i : Nat} {fields : List Field} {cells : List String},
    decodeFields i fields = .ok cells → cells.length = fields.length
  | _, [], _, h => by cases h; rfl
  | i, f :: r, cells, h => by
    rw [decodeFields] at h
    split at h
    · cases h
    · obtain ⟨rest, hrest, rfl⟩ := map_eq_ok h
      rw [List.length_cons, List.length_cons, length_decodeFields hrest]

theorem length_of_mem_rowsFrom {file : List UInt8} {width : Nat} :
    ∀ {record : Nat} {records : List (List UInt8 × List Field)} {rows : List Row},
      rowsFrom file width record records = .ok rows → ∀ row ∈ rows, row.length = width
  | _, [], _, h, _, hr => by cases h; cases hr
  | record, (rest, fields) :: r, rows, h, row, hr => by
    rw [rowsFrom] at h
    split at h
    · cases h
    · rename_i hwidth
      split at h
      · cases h
      · rename_i cells hcells
        obtain ⟨others, hothers, rfl⟩ := map_eq_ok h
        rcases List.mem_cons.1 hr with rfl | hr
        · rw [List.length_map, length_decodeFields hcells, List.length_map]
          exact Decidable.not_not.1 hwidth
        · exact length_of_mem_rowsFrom hothers row hr

theorem wellFormed_tableOfBytes {file : List UInt8} {t : Table} (h : tableOfBytes file = .ok t) : t.WellFormed := by
  unfold tableOfBytes at h
  split at h
  · cases h
    exact Table.wellFormed_empty []
  · split at h
    · cases h
    · rename_i fields hfields
      obtain ⟨rows, hrows, rfl⟩ := map_eq_ok h
      exact fun row hr => (length_of_mem_rowsFrom hrows row hr).trans (length_decodeFields hfields).symm

end TableQuery.Csv
