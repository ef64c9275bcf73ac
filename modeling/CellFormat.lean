import CellFormat.CachedRequest
import CellFormat.Dialect.Description
import CellFormat.Payload.Reading
import CellFormat.Payload.Writing
import CellFormat.Table.Html
import CellFormat.Proofs.Calendar.StoredTimestamp
import CellFormat.Proofs.Dialect.RoundTrip
import CellFormat.Proofs.Dialect.Respelling
import CellFormat.Proofs.Dialect.Dropping
import CellFormat.Proofs.CachedRequest
import CellFormat.Proofs.Table.TextTags
import CellFormat.Proofs.Table.Partition
import CellFormat.Proofs.Table.Numbers
import CellFormat.Proofs.Payload.RoundTrip
import CellFormat.Proofs.Payload.Rearranged
import CellFormat.Proofs.Binary64.Nearest
import CellFormat.Proofs.Calendar.StoredSeconds
import CellFormat.Proofs.Dialect.Cursors
import CellFormat.Proofs.Dialect.Tiling
import CellFormat.Proofs.Decimal.Order
import CellFormat.Proofs.Decimal.Fewest
import CellFormat.Proofs.Json.Numerals
import CellFormat.Proofs.Table.PlainNumbers
import CellFormat.Proofs.Dialect.TokenAt
import CellFormat.Proofs.Calendar.FullDate
