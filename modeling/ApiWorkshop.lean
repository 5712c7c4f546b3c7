import ApiWorkshop.Main
import ApiWorkshop.Proofs.Api.Choices
import ApiWorkshop.Proofs.Api.Folded
import ApiWorkshop.Proofs.Api.UnknownSchemas
import ApiWorkshop.Proofs.Merge.Skipped
import ApiWorkshop.Proofs.OpenApi.Closed
import ApiWorkshop.Proofs.OpenApi.FileOrder
import ApiWorkshop.Proofs.OpenApi.ReadBack
import ApiWorkshop.Proofs.Region.Grammar
import ApiWorkshop.Proofs.Region.Splices
import ApiWorkshop.Proofs.Region.Written
import ApiWorkshop.Proofs.Settings.ReadBack
import ApiWorkshop.Proofs.Translation.Document
import ApiWorkshop.Proofs.Run.NewProject
import ApiWorkshop.Proofs.Run.Again
import ApiWorkshop.Proofs.Api.Spellings
import ApiWorkshop.Proofs.Api.UnknownKeys
import ApiWorkshop.Proofs.Time.Durations
import ApiWorkshop.Proofs.Translation.Timestamps
import ApiWorkshop.Proofs.OpenApi.Identifiers
import ApiWorkshop.Proofs.Project.ListedLines
import ApiWorkshop.Proofs.Project.TypeAliases
import ApiWorkshop.Proofs.Toml.Reported
import ApiWorkshop.Proofs.Api.Located
import ApiWorkshop.Proofs.Files.AllOrNothing
import ApiWorkshop.Proofs.Project.Manifest
import ApiWorkshop.Proofs.Api.LocatedKeys
import ApiWorkshop.Proofs.Run.NewPaths
