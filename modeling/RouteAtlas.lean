import RouteAtlas.Main
import RouteAtlas.Proofs.Catalogue.Enumeration
import RouteAtlas.Proofs.CommandLine.ExitCode
import RouteAtlas.Proofs.Endpoint.Merging
import RouteAtlas.Proofs.Json.Catalogue
import RouteAtlas.Proofs.Module.Declarations
import RouteAtlas.Proofs.Project.Exclusion
import RouteAtlas.Proofs.Project.Resolution
import RouteAtlas.Proofs.Request.Comments
import RouteAtlas.Proofs.Request.NumericUse
import RouteAtlas.Proofs.Request.Shadowing
import RouteAtlas.Proofs.Request.Wrappers
import RouteAtlas.Proofs.Signature.Occurrence
import RouteAtlas.Proofs.Survey.BrokenFile
import RouteAtlas.Proofs.Survey.Descent
import RouteAtlas.Proofs.Survey.Inference
import RouteAtlas.Proofs.Survey.Jobs
import RouteAtlas.Proofs.Survey.LocatedHandlers
import RouteAtlas.Proofs.Survey.MountTargets
import RouteAtlas.Proofs.Ticket.Freshness
import RouteAtlas.Proofs.Url.Template
