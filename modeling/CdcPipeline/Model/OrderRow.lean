import CdcPipeline.Library.Json
import CdcPipeline.Model.ApiClients

namespace CdcPipeline.Model

open Library Text

/-- A row of `orders`, each column in its text form; only the two times may be null. -/
structure OrderRow where
  id : Bytes
  userId : Bytes
  totalAmount : Bytes
  status : Bytes
  items : Bytes
  createdAt : Option Bytes
  updatedAt : Option Bytes

/-- How the connector writes a numeric and a timestamp, which its settings decide. -/
structure ColumnEncoding where
  numeric : Bytes → Json
  timestamp : Option Bytes → Json

namespace OrderRow

/-- The columns that `GetOrderById` selects. -/
def selected (row : OrderRow) : SqlRow :=
  [some row.id, some row.userId, some row.totalAmount, some row.status, some row.items]

/-- The image of the row in a change event: every column of it, the JSONB as a string. -/
def image (enc : ColumnEncoding) (row : OrderRow) : Json :=
  .obj [(bytes "created_at", enc.timestamp row.createdAt),
    (bytes "id", .str row.id),
    (bytes "items_jsonb", .str row.items),
    (bytes "status", .str row.status),
    (bytes "total_amount", enc.numeric row.totalAmount),
    (bytes "updated_at", enc.timestamp row.updatedAt),
    (bytes "user_id", .str row.userId)]

end OrderRow

end CdcPipeline.Model
