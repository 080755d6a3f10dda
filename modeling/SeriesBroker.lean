import SeriesBroker.Http.Router
import SeriesBroker.Main
import SeriesBroker.Server.Run
import SeriesBroker.Proofs.Table.OuterJoin
import SeriesBroker.Proofs.Statement.Compile
import SeriesBroker.Proofs.Number.Text
import SeriesBroker.Proofs.Statement.Containment
import SeriesBroker.Proofs.Statement.Lossless
import SeriesBroker.Proofs.Lookup.Resolve
import SeriesBroker.Proofs.Table.Again
import SeriesBroker.Proofs.Table.Rearranged
import SeriesBroker.Proofs.Request.Compiled
import SeriesBroker.Proofs.Http.Batch
import SeriesBroker.Proofs.Lookup.Query
import SeriesBroker.Proofs.Lookup.Samples
import SeriesBroker.Proofs.Json.Null
import SeriesBroker.Proofs.Store.Answer
import SeriesBroker.Proofs.Shape.Response
import SeriesBroker.Proofs.Statement.Cut
import SeriesBroker.Proofs.Request.Codec
import SeriesBroker.Proofs.Store.Codec
import SeriesBroker.Proofs.Store.Tags
import SeriesBroker.Proofs.Request.Faults
import SeriesBroker.Proofs.Table.Bounds
import SeriesBroker.Proofs.Request.Integers
import SeriesBroker.Proofs.Command.LookupText
import SeriesBroker.Proofs.Config.Override
import SeriesBroker.Proofs.Statement.Delimit
import SeriesBroker.Proofs.Table.Distinct
import SeriesBroker.Proofs.Table.Stages
import SeriesBroker.Proofs.Store.Endpoint
